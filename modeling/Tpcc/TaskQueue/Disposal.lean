import Tpcc.TaskQueue.Waiting
import Tpcc.Lib.Sums

/-! Where the handles are that the queue has accepted: in a queue of a context, in the hands of a
thread, resumed, or destroyed by `Join`. -/

namespace Tpcc.TaskQueue

open Lib Finset

section Stored

variable {η : Type}

/-- The rest of the external batch behind a resumed coroutine. -/
def Back.held : Back η → List η
  | .batch rest => rest
  | .internal => []

/-- The handles that a thread has taken out of a queue and not resumed: the rest of its external
batch, and a handle on its way from the waiting queue to the ready queue. -/
def Point.held : Point η → List η
  | .batch rest => rest
  | .inflightPush h => [h]
  | .running back _ => back.held
  | _ => []

theorem Back.held_point (back : Back η) : back.point.held = back.held := by
  cases back with
  | batch rest => rfl
  | internal => rfl

/-- The handles in the queues of a context. -/
def TPerThreadContext.held (ctx : TPerThreadContext η) : List η :=
  ctx.sleepingTasks ++ (ctx.readyTasksInternal ++
    (ctx.inflightWaitingTasksInternal ++ ctx.readyTasksExternal))

/-- The context that the next step of thread `t` changes. -/
def Point.target (c : Config) (t : Nat) : Point η → Nat
  | .running _ (.incPush _ threadHint) => c.home threadHint
  | _ => t

/-- The context that a call on thread `t` changes. -/
def Call.target (c : Config) (t : Nat) : Call η → Nat
  | .taskReady _ threadHint => c.home threadHint
  | .asyncSleep _ threadHint => c.home threadHint
  | .taskReadyThreadSafe _ threadHint => c.home threadHint
  | .incInflight _ _ => t
  | .decInflight _ => t

theorem Call.target_lt {c : Config} {t : Nat} (ht : t < c.threadCount) (call : Call η) :
    call.target c t < c.threadCount := by
  cases call with
  | taskReady _ threadHint => exact c.home_lt threadHint
  | asyncSleep _ threadHint => exact c.home_lt threadHint
  | taskReadyThreadSafe _ threadHint => exact c.home_lt threadHint
  | incInflight _ _ => exact ht
  | decInflight _ => exact ht

namespace TTaskQueue

/-- The handles stored at thread `t`. -/
def stored (q : TTaskQueue η) (t : Nat) : List η := (q.thread t).held ++ (q.context t).held

/-- How often a handle is stored. -/
def storedCount [DecidableEq η] (c : Config) (q : TTaskQueue η) (h : η) : Nat :=
  ∑ t ∈ range c.threadCount, (q.stored t).count h

variable (q : TTaskQueue η) (t i : Nat)

@[simp] theorem stored_setThread (p : Point η) :
    (q.setThread t p).stored i = if i = t then p.held ++ (q.context i).held else q.stored i := by
  unfold stored
  by_cases hi : i = t
  · simp [hi]
  · simp [hi]

@[simp] theorem stored_setContext (ctx : TPerThreadContext η) :
    (q.setContext t ctx).stored i = if i = t then (q.thread i).held ++ ctx.held
      else q.stored i := by
  unfold stored
  by_cases hi : i = t
  · simp [hi]
  · simp [hi]

@[simp] theorem stored_setCount (n : UInt64) : (q.setCount n).stored = q.stored := rfl

@[simp] theorem stored_setJoin (p : JoinPoint) : (q.setJoin p).stored = q.stored := rfl

end TTaskQueue

theorem TTaskQueue.waiting_subset_stored (q : TTaskQueue η) (t : Nat) :
    q.waiting t ⊆ q.stored t := by
  intro a hmem
  simp only [TTaskQueue.stored, TPerThreadContext.held, List.mem_append]
  exact .inr (.inr (.inr (.inl hmem)))

theorem TTaskQueue.length_stored (q : TTaskQueue η) (t : Nat) :
    (q.stored t).length = (q.thread t).held.length + ((q.context t).sleepingTasks.length +
      ((q.context t).readyTasksInternal.length +
        ((q.context t).inflightWaitingTasksInternal.length +
          (q.context t).readyTasksExternal.length))) := by
  simp only [TTaskQueue.stored, TPerThreadContext.held, List.length_append]

/-- A handle that leaves the middle of a list. -/
theorem count_eraseIdx [DecidableEq η] {l : List η} {i : Nat} {h : η} (hget : l[i]? = some h)
    (a : η) : l.count a = (l.eraseIdx i).count a + [h].count a := by
  induction l generalizing i with
  | nil => simp at hget
  | cons b l ih =>
    cases i with
    | zero =>
      obtain rfl : b = h := by simpa using hget
      simp [List.count_cons]
    | succ i =>
      have hrest := ih (i := i) (by simpa using hget)
      simp only [List.eraseIdx_cons_succ, List.count_cons] at hrest ⊢
      omega

/-- The handle that `Join` destroys next leaves its context. -/
theorem drainNext_held [DecidableEq η] {ctx ctx' : TPerThreadContext η} {h : η}
    (hnext : drainNext ctx = some (h, ctx')) (a : η) :
    ctx.held.count a = ctx'.held.count a + [h].count a := by
  unfold drainNext at hnext
  split at hnext
  · cases hnext
    simp only [TPerThreadContext.held, List.count_append, List.count_cons, List.count_nil]
    omega
  · cases hnext
    simp only [TPerThreadContext.held, List.count_append, List.count_cons, List.count_nil]
    omega
  · cases hnext
    simp only [TPerThreadContext.held, List.count_append, List.count_cons, List.count_nil]
    omega
  · cases hnext
    simp only [TPerThreadContext.held, List.count_append, List.count_cons, List.count_nil]
    omega
  · cases hnext

theorem drainNext_eq_none {ctx : TPerThreadContext η} (hnext : drainNext ctx = none) :
    ctx.held = [] := by
  unfold drainNext at hnext
  split at hnext
  · cases hnext
  · cases hnext
  · cases hnext
  · cases hnext
  · rfl

end Stored

section Balance

variable {η γ ι : Type} {c : Config} {client : Client η γ ι} {s s' : System η γ}

/-- No handle is lost by the step: a thread that looks at the stop request between two handles of
its external batch does not find it raised, and the ready queue has room for a handle that
`ProcessInflightQueue` moves there. -/
def Keeps (c : Config) (s : System η γ) : Action η ι → Prop
  | .loop t _ =>
    match s.q.thread t with
    | .batch (_ :: _) => s.q.stopRequested = false
    | .inflightPush _ => (s.q.context t).readyTasksInternal.length < c.internalCapacity
    | _ => True
  | _ => True

variable [DecidableEq η]

/-- A step accounts for its handles: what is stored afterwards, with what it resumed, destroyed or
dropped, is what was stored before and what it accepted. -/
def Balance (c : Config) (s s' : System η γ) (dropped : List η) : Prop :=
  ∀ a, s'.q.storedCount c a + s'.history.resumed.count a + s'.history.destroyed.count a +
      dropped.count a + s.history.accepted.count a =
    s.q.storedCount c a + s.history.resumed.count a + s.history.destroyed.count a +
      s'.history.accepted.count a

/-- What a step does at the one thread `t` whose stored handles it changes: the handles that it
accepts, resumes, destroys and drops. -/
structure Flow (s s' : System η γ) (t : Nat) (accepted resumed destroyed dropped : List η) :
    Prop where
  other : ∀ i, i ≠ t → s'.q.stored i = s.q.stored i
  here : ∀ a, (s'.q.stored t).count a + resumed.count a + destroyed.count a + dropped.count a =
    (s.q.stored t).count a + accepted.count a
  accepted : s'.history.accepted = s.history.accepted ++ accepted
  resumed : s'.history.resumed = s.history.resumed ++ resumed
  destroyed : s'.history.destroyed = s.history.destroyed ++ destroyed

theorem Flow.balance {t : Nat} (ht : t < c.threadCount)
    {accepted resumed destroyed dropped : List η}
    (h : Flow s s' t accepted resumed destroyed dropped) : Balance c s s' dropped := by
  intro a
  have hsum : s'.q.storedCount c a + (s.q.stored t).count a =
      s.q.storedCount c a + (s'.q.stored t).count a :=
    sum_range_step (f := fun i => (s.q.stored i).count a)
      (g := fun i => (s'.q.stored i).count a) ht fun i hi => by simp only [h.other i hi]
  have hcount := h.here a
  rw [h.accepted, h.resumed, h.destroyed]
  simp only [List.count_append]
  omega

/-- Thread `t` goes to another point and its context changes: its handles move between the two, or
are resumed or dropped. -/
theorem Flow.of_thread {t : Nat} {p p' : Point η} {ctx : TPerThreadContext η}
    {resumed dropped : List η} (hpoint : s.q.thread t = p)
    (hthread : s'.q.thread = Function.update s.q.thread t p')
    (hcontext : s'.q.context = Function.update s.q.context t ctx)
    (hcount : ∀ a, p'.held.count a + ctx.held.count a + resumed.count a + dropped.count a =
      p.held.count a + (s.q.context t).held.count a)
    (haccepted : s'.history.accepted = s.history.accepted)
    (hresumed : s'.history.resumed = s.history.resumed ++ resumed)
    (hdestroyed : s'.history.destroyed = s.history.destroyed) :
    Flow s s' t [] resumed [] dropped where
  other := fun i hi => by simp [TTaskQueue.stored, hthread, hcontext, hi]
  here := by
    intro a
    have hhere := hcount a
    simp only [TTaskQueue.stored, hthread, hcontext, Function.update_self, hpoint,
      List.count_append, List.count_nil]
    omega
  accepted := by simp [haccepted]
  resumed := hresumed
  destroyed := by simp [hdestroyed]

/-- Thread `t` goes to another point and takes nothing out of a queue. -/
theorem Flow.of_point {t : Nat} {p p' : Point η} {resumed dropped : List η}
    (hpoint : s.q.thread t = p) (hthread : s'.q.thread = Function.update s.q.thread t p')
    (hcontext : s'.q.context = s.q.context)
    (hcount : ∀ a, p'.held.count a + resumed.count a + dropped.count a = p.held.count a)
    (haccepted : s'.history.accepted = s.history.accepted)
    (hresumed : s'.history.resumed = s.history.resumed ++ resumed)
    (hdestroyed : s'.history.destroyed = s.history.destroyed) :
    Flow s s' t [] resumed [] dropped := by
  have hsame : s'.q.context = Function.update s.q.context t (s.q.context t) := by
    rw [hcontext, Function.update_eq_self]
  refine .of_thread hpoint hthread hsame (fun a => ?_) haccepted hresumed hdestroyed
  have hhere := hcount a
  omega

/-- A step that leaves the stored handles and their history as they are. -/
theorem Flow.of_same (t : Nat) (hstored : ∀ i, s'.q.stored i = s.q.stored i)
    (haccepted : s'.history.accepted = s.history.accepted)
    (hresumed : s'.history.resumed = s.history.resumed)
    (hdestroyed : s'.history.destroyed = s.history.destroyed) : Flow s s' t [] [] [] [] where
  other := fun i _ => hstored i
  here := fun a => by rw [hstored]; rfl
  accepted := by simp [haccepted]
  resumed := by simp [hresumed]
  destroyed := by simp [hdestroyed]

omit [DecidableEq η] in
theorem TTaskQueue.stored_setThread_same {q : TTaskQueue η} {t : Nat} {p p' : Point η}
    (hpoint : q.thread t = p) (hheld : p'.held = p.held) (i : Nat) :
    (q.setThread t p').stored i = q.stored i := by
  by_cases hi : i = t
  · subst hi
    simp [TTaskQueue.stored, hpoint, hheld]
  · simp [hi]

/-- A step of thread `t` changes what is stored at `t`, or puts a refused handle into its waiting
queue. -/
theorem LoopMove.flow {t : Nat} {pick : Option Nat} (ht : t < c.threadCount)
    (hmove : LoopMove c client s t s') :
    ∃ u accepted resumed dropped, u < c.threadCount ∧ u = (s.q.thread t).target c t ∧
      Flow s s' u accepted resumed [] dropped ∧
      (Keeps c s (.loop t pick : Action η ι) → s'.q.thread t ≠ .terminated → dropped = []) := by
  have hnil : ∀ l : List η, l = l ++ [] := fun l => (List.append_nil l).symm
  cases hmove with
  | batchBreak h rest hpoint hstop =>
    refine ⟨t, [], [], h :: rest, ht, by rw [hpoint]; rfl,
      .of_point hpoint rfl rfl (fun a => ?_) rfl (hnil _) rfl, ?_⟩
    · simp only [Point.held, List.count_nil]
      omega
    · simp [Keeps, hpoint, hstop]
  | inflightDrop h hpoint hfull =>
    refine ⟨t, [], [], [h], ht, by rw [hpoint]; rfl,
      .of_point hpoint rfl rfl (fun a => ?_) rfl (hnil _) rfl, ?_⟩
    · simp only [Point.held, List.count_nil]
      omega
    · intro hkeeps
      simp only [Keeps, hpoint] at hkeeps
      omega
  | awakenFull i h hpoint hpick hfull =>
    refine ⟨t, [], [], [h], ht, by rw [hpoint]; rfl,
      .of_thread hpoint rfl rfl (fun a => ?_) rfl (hnil _) rfl, by simp⟩
    have hcount := count_eraseIdx hpick a
    simp only [Point.held, TPerThreadContext.held, List.count_append, List.count_nil]
    omega
  | drain hpoint hstop =>
    refine ⟨t, [], [], [], ht, by rw [hpoint]; rfl,
      .of_thread hpoint rfl rfl (fun a => ?_) rfl (hnil _) rfl, fun _ _ => rfl⟩
    simp only [Point.held, TPerThreadContext.held, List.count_append, List.count_nil]
    omega
  | batchResume h rest hpoint hstop =>
    refine ⟨t, [], [h], [], ht, by rw [hpoint]; rfl,
      .of_point hpoint rfl rfl (fun a => ?_) rfl rfl rfl, fun _ _ => rfl⟩
    simp only [Point.held, Back.held, List.count_cons, List.count_nil]
    omega
  | inflightPop prev h rest hpoint hprev hwaiting =>
    refine ⟨t, [], [], [], ht, by rw [hpoint]; rfl,
      .of_thread hpoint rfl rfl (fun a => ?_) rfl (hnil _) rfl, fun _ _ => rfl⟩
    simp only [Point.held, TPerThreadContext.held, hwaiting, List.count_append, List.count_cons,
      List.count_nil]
    omega
  | inflightPush h hpoint hroom =>
    refine ⟨t, [], [], [], ht, by rw [hpoint]; rfl,
      .of_thread hpoint rfl rfl (fun a => ?_) rfl (hnil _) rfl, fun _ _ => rfl⟩
    simp only [Point.held, TPerThreadContext.held, List.count_append, List.count_nil]
    omega
  | awaken i h hpoint hpick hroom =>
    refine ⟨t, [], [], [], ht, by rw [hpoint]; rfl, .of_thread hpoint
      (Function.update_eq_self t _).symm rfl (fun a => ?_) rfl (hnil _) rfl, fun _ _ => rfl⟩
    have hcount := count_eraseIdx hpick a
    simp only [System.setContext_q, TTaskQueue.setContext_thread, hpoint, Point.held,
      TPerThreadContext.held, List.count_append, List.count_nil]
    omega
  | internalResume h rest hpoint hready =>
    refine ⟨t, [], [h], [], ht, by rw [hpoint]; rfl,
      .of_thread hpoint rfl rfl (fun a => ?_) rfl rfl rfl, fun _ _ => rfl⟩
    simp only [Point.held, Back.held, TPerThreadContext.held, hready, List.count_append,
      List.count_cons, List.count_nil]
    omega
  | incRefuse back h threadHint hpoint hroom =>
    have hback : ((s.q.setThread t (.running back .client)).thread (c.home threadHint)).held =
        (s.q.thread (c.home threadHint)).held := by
      by_cases hi : c.home threadHint = t
      · simp [hi, hpoint, Point.held]
      · simp [hi]
    refine ⟨c.home threadHint, [h], [], [], c.home_lt threadHint, by rw [hpoint]; rfl,
      ⟨fun i hi => ?_, fun a => ?_, rfl, (List.append_nil _).symm, (List.append_nil _).symm⟩,
      fun _ _ => rfl⟩
    · have hsame : (s.q.setThread t (.running back .client)).stored i = s.q.stored i :=
        TTaskQueue.stored_setThread_same hpoint (by rfl) i
      simpa [hi] using hsame
    · simp only [finish_q, System.recordEnqueued_q, System.accept_q, System.setContext_q,
        System.setThread_q, TTaskQueue.stored, TTaskQueue.setContext_thread,
        TTaskQueue.setContext_context, if_true, hback, TPerThreadContext.held, List.count_append,
        List.count_cons, List.count_nil]
      omega
  | inflightAdd hpoint =>
    have hsame : ∀ i, (s.q.setThread t (.inflightCompare s.q.runningInternalCount)).stored i =
        s.q.stored i := TTaskQueue.stored_setThread_same hpoint rfl
    refine ⟨t, [], [], [], ht, by rw [hpoint]; rfl, ?_, fun _ _ => rfl⟩
    unfold inflightFetchAdd
    dsimp only
    split
    · split
      · exact .of_same t hsame rfl rfl rfl
      · exact .of_same t hsame rfl rfl rfl
    · exact .of_same t hsame rfl rfl rfl
  -- the other steps only move the thread to a point that holds the same handles
  | exit hpoint _ | batchDone hpoint | inflightEnter hpoint _ _ | inflightLeave hpoint
  | inflightMiss _ hpoint _ _ | inflightReject _ hpoint _ | inflightUndo hpoint | sleepDone hpoint
  | internalNone hpoint _ | incAdmit _ _ _ _ hpoint _ | incReject _ _ _ _ hpoint _
  | incUndo _ _ _ hpoint =>
    exact ⟨t, [], [], [], ht, by rw [hpoint]; rfl,
      .of_same t (TTaskQueue.stored_setThread_same hpoint rfl) rfl rfl rfl, fun _ _ => rfl⟩
  | incThrow back h threadHint hpoint hfull =>
    exact ⟨c.home threadHint, [], [], [], c.home_lt threadHint, by rw [hpoint]; rfl,
      .of_same _ (TTaskQueue.stored_setThread_same hpoint rfl) rfl rfl rfl, fun _ _ => rfl⟩

/-- A step of a thread that drops nothing, with the handles that it accepts and resumes. -/
theorem LoopMove.flow_of_keeps {t : Nat} {pick : Option Nat} (ht : t < c.threadCount)
    (hmove : LoopMove c client s t s') (accepted resumed : List η)
    (hkeeps : Keeps c s (.loop t pick : Action η ι)) (halive : s'.q.thread t ≠ .terminated)
    (haccepted : s'.history.accepted = s.history.accepted ++ accepted)
    (hresumed : s'.history.resumed = s.history.resumed ++ resumed) :
    Flow s s' ((s.q.thread t).target c t) accepted resumed [] [] := by
  obtain ⟨u, accepted', resumed', dropped, -, rfl, hflow, hnone⟩ := hmove.flow ht
  obtain rfl := hnone hkeeps halive
  obtain rfl : accepted = accepted' := by simpa [haccepted] using hflow.accepted
  obtain rfl : resumed = resumed' := by simpa [hresumed] using hflow.resumed
  exact hflow

/-- A step that drops nothing leaves the copies of a handle that it neither accepts nor resumes. -/
theorem Flow.count_of_notMem {t : Nat} {accepted resumed : List η} {a : η}
    (h : Flow s s' t accepted resumed [] []) (haccepted : a ∉ accepted) (hresumed : a ∉ resumed)
    (u : Nat) : (s'.q.stored u).count a = (s.q.stored u).count a := by
  by_cases hu : u = t
  · subst hu
    have hcount := h.here a
    rw [List.count_eq_zero.2 haccepted, List.count_eq_zero.2 hresumed] at hcount
    simpa using hcount
  · rw [h.other u hu]

theorem Flow.stored_eq {t : Nat} (h : Flow s s' t [] [] [] []) (u : Nat) (a : η) :
    (s'.q.stored u).count a = (s.q.stored u).count a :=
  h.count_of_notMem List.not_mem_nil List.not_mem_nil u

/-- The handle that a call stores. -/
theorem flow_of_push {t : Nat} {h : η} {ctx : TPerThreadContext η}
    (hcontext : s'.q.context = Function.update s.q.context t ctx)
    (hthread : s'.q.thread = s.q.thread)
    (hheld : ∀ a, ctx.held.count a = (s.q.context t).held.count a + [h].count a)
    (haccepted : s'.history.accepted = s.history.accepted ++ [h])
    (hresumed : s'.history.resumed = s.history.resumed)
    (hdestroyed : s'.history.destroyed = s.history.destroyed) : Flow s s' t [h] [] [] [] where
  other := fun i hi => by simp [TTaskQueue.stored, hcontext, hthread, hi]
  here := by
    intro a
    have hcount := hheld a
    simp only [TTaskQueue.stored, hcontext, hthread, Function.update_self, List.count_append,
      List.count_nil]
    omega
  accepted := haccepted
  resumed := by simp [hresumed]
  destroyed := by simp [hdestroyed]

theorem ThreadSafeMove.flow {t : Option Nat} {h : η} {threadHint : Nat}
    (hmove : ThreadSafeMove c client s t h threadHint s') :
    ∃ accepted, Flow s s' (c.home threadHint) accepted [] [] [] := by
  cases hmove with
  | push hroom =>
    refine ⟨[h], flow_of_push rfl rfl (fun a => ?_) rfl rfl rfl⟩
    simp only [TPerThreadContext.held, List.count_append]
    omega
  | full _ => exact ⟨[], .of_same _ (fun _ => rfl) rfl rfl rfl⟩

theorem CallMove.flow {t : Nat} {back : Back η} {call : Call η}
    (hpoint : s.q.thread t = .running back .client)
    (hmove : CallMove c client s t back call s') :
    ∃ accepted, Flow s s' (call.target c t) accepted [] [] [] := by
  cases hmove with
  | taskReady h threadHint hroom =>
    refine ⟨[h], flow_of_push rfl rfl (fun a => ?_) rfl rfl rfl⟩
    simp only [Call.target, TPerThreadContext.held, List.count_append]
    omega
  | asyncSleep h threadHint =>
    refine ⟨[h], flow_of_push rfl rfl (fun a => ?_) rfl rfl rfl⟩
    simp only [Call.target, TPerThreadContext.held, List.count_append]
    omega
  | threadSafe h threadHint hmove => exact hmove.flow
  | taskReadyFull h threadHint _ => exact ⟨[], .of_same _ (fun _ => rfl) rfl rfl rfl⟩
  | decInflight h => exact ⟨[], .of_same _ (fun _ => rfl) rfl rfl rfl⟩
  | incTake h threadHint _ =>
    exact ⟨[], .of_same _ (TTaskQueue.stored_setThread_same hpoint rfl) rfl rfl rfl⟩
  | incExceed h threadHint _ =>
    exact ⟨[], .of_same _ (TTaskQueue.stored_setThread_same hpoint rfl) rfl rfl rfl⟩

theorem JoinMove.balance (hmove : JoinMove c s s') : Balance c s s' [] := by
  cases hmove with
  | destroy k h ctx _ hk hnext =>
    have hflow : Flow s ((s.setContext k ctx).recordDestroyed h) k [] [] [h] [] := by
      refine ⟨fun i hi => by simp [hi], fun a => ?_, (List.append_nil _).symm,
        (List.append_nil _).symm, rfl⟩
      have hcount := drainNext_held hnext a
      simp only [System.recordDestroyed_q, System.setContext_q, TTaskQueue.stored,
        TTaskQueue.setContext_thread, TTaskQueue.setContext_context, if_true, List.count_append,
        List.count_nil]
      omega
    exact hflow.balance hk
  | _ => exact Flow.balance c.threadCount_pos (.of_same 0 (fun _ => rfl) rfl rfl rfl)

/-- Every step accounts for its handles.  It drops some only where a thread finds the stop request
in the middle of a batch, where the ready queue has no room for an admitted handle, or where the
process ends. -/
theorem Move.balance {action : Action η ι} (hmove : Move c client s action s') :
    ∃ dropped, Balance c s s' dropped ∧
      (Keeps c s action → (∀ t < c.threadCount, s'.q.thread t ≠ .terminated) → dropped = []) := by
  cases hmove with
  | loop t pick ht hmove =>
    obtain ⟨u, _, _, dropped, hu, -, hflow, hnone⟩ := hmove.flow ht
    exact ⟨dropped, hflow.balance hu, fun hkeeps halive => hnone hkeeps (halive t ht)⟩
  | call t call back state ht hpoint _ hmove =>
    obtain ⟨_, hflow⟩ := CallMove.flow (s := s.setClient state) hpoint hmove
    exact ⟨[], hflow.balance (call.target_lt ht), fun _ _ => rfl⟩
  | callOutside h threadHint state _ hmove =>
    obtain ⟨_, hflow⟩ := ThreadSafeMove.flow (s := s.setClient state) hmove
    exact ⟨[], hflow.balance (c.home_lt threadHint), fun _ _ => rfl⟩
  | ret t back state ht hpoint _ =>
    have hflow : Flow s ((s.setClient state).setThread t back.point) t [] [] [] [] :=
      .of_same t (TTaskQueue.stored_setThread_same hpoint back.held_point) rfl rfl rfl
    exact ⟨[], hflow.balance ht, fun _ _ => rfl⟩
  | join hmove => exact ⟨[], hmove.balance, fun _ _ => rfl⟩
  | _ =>
    exact ⟨[], Flow.balance c.threadCount_pos (.of_same 0 (fun _ => rfl) rfl rfl rfl),
      fun _ _ => rfl⟩

omit [DecidableEq η] in
theorem System.accept_before (s : System η γ) (h : η) :
    (s.accept h).history.acceptedBeforeStop = s.history.acceptedBeforeStop ++
      if s.q.stopRequested then [] else [h] := by
  unfold System.accept
  split
  · exact (List.append_nil _).symm
  · rfl

omit [DecidableEq η] in
theorem ThreadSafeMove.accepts {t : Option Nat} {h : η} {threadHint : Nat}
    (hmove : ThreadSafeMove c client s t h threadHint s') :
    ∃ come, s'.history.accepted = s.history.accepted ++ come ∧
      s'.history.acceptedBeforeStop = s.history.acceptedBeforeStop ++
        if s.q.stopRequested then [] else come := by
  cases hmove with
  | push _ => exact ⟨[h], rfl, System.accept_before (s.setContext _ _) h⟩
  | full _ => exact ⟨[], by simp [finish, System.setClient], by simp [finish, System.setClient]⟩

omit [DecidableEq η] in
/-- The handles that a step accepts, before or after the stop request. -/
theorem Move.accepts {action : Action η ι} (hmove : Move c client s action s') :
    ∃ come, s'.history.accepted = s.history.accepted ++ come ∧
      s'.history.acceptedBeforeStop = s.history.acceptedBeforeStop ++
        if s.q.stopRequested then [] else come := by
  have hnone : ∀ {history : History η}, history.accepted = s.history.accepted →
      history.acceptedBeforeStop = s.history.acceptedBeforeStop →
      ∃ come, history.accepted = s.history.accepted ++ come ∧
        history.acceptedBeforeStop = s.history.acceptedBeforeStop ++
          if s.q.stopRequested then [] else come := by
    intro history haccepted hbefore
    exact ⟨[], by simp [haccepted], by simp [hbefore]⟩
  cases hmove with
  | loop t pick ht hmove =>
    cases hmove with
    | incRefuse back h threadHint _ _ =>
      exact ⟨[h], rfl,
        System.accept_before ((s.setThread t (.running back .client)).setContext _ _) h⟩
    | inflightAdd _ =>
      unfold inflightFetchAdd
      dsimp only
      split
      · split
        · exact hnone rfl rfl
        · exact hnone rfl rfl
      · exact hnone rfl rfl
    | _ => exact hnone rfl rfl
  | call t call back state ht hpoint _ hmove =>
    cases hmove with
    | taskReady h threadHint _ =>
      exact ⟨[h], rfl, System.accept_before ((s.setClient state).setContext _ _) h⟩
    | asyncSleep h threadHint =>
      exact ⟨[h], rfl, System.accept_before ((s.setClient state).setContext _ _) h⟩
    | threadSafe h threadHint hmove => exact hmove.accepts
    | _ => exact hnone rfl rfl
  | callOutside h threadHint state _ hmove => exact hmove.accepts
  | join hmove => cases hmove <;> exact hnone rfl rfl
  | _ => exact hnone rfl rfl

end Balance

section Touch

variable {η γ ι : Type} {c : Config} {client : Client η γ ι} {s s' : System η γ}

/-- The queue thread that takes a step. -/
def Action.thread : Action η ι → Option Nat
  | .loop t _ => some t
  | .call t _ => t
  | .ret t => some t
  | _ => none

/-- The context whose unlocked queues a step reads or changes, before `Join`. -/
def Action.touched (c : Config) (s : System η γ) : Action η ι → Option Nat
  | .loop t _ => some ((s.q.thread t).target c t)
  | .call _ (.taskReadyThreadSafe _ _) => none
  | .call _ (.taskReady _ threadHint) => some (c.home threadHint)
  | .call _ (.asyncSleep _ threadHint) => some (c.home threadHint)
  | _ => none

/-- The step's `TryPush` fails. -/
def pushFails (c : Config) (s : System η γ) : Action η ι → Bool
  | .loop t pick =>
    match s.q.thread t with
    | .inflightPush _ => decide (c.internalCapacity ≤ (s.q.context t).readyTasksInternal.length)
    | .sleeping =>
      (pick.bind fun i => (s.q.context t).sleepingTasks[i]?).isSome &&
        decide (c.internalCapacity ≤ (s.q.context t).readyTasksInternal.length)
    | .running _ (.incPush _ threadHint) =>
      decide (c.internalCapacity ≤ (s.q.waiting (c.home threadHint)).length)
    | _ => false
  | .call _ (.taskReady _ threadHint) =>
    decide (c.internalCapacity ≤ (s.q.context (c.home threadHint)).readyTasksInternal.length)
  | .call _ (.taskReadyThreadSafe _ threadHint) =>
    decide (c.externalCapacity ≤ (s.q.context (c.home threadHint)).readyTasksExternal.length)
  | _ => false

/-- The three queues of a context that are not locked. -/
def TPerThreadContext.unlocked (ctx : TPerThreadContext η) : List η × List η × List η :=
  (ctx.sleepingTasks, ctx.readyTasksInternal, ctx.inflightWaitingTasksInternal)

theorem LoopMove.context {t : Nat} (hmove : LoopMove c client s t s') {u : Nat} (hu : u ≠ t)
    (htarget : u ≠ (s.q.thread t).target c t) : s'.q.context u = s.q.context u := by
  cases hmove with
  | incRefuse back h threadHint hpoint _ =>
    rw [hpoint] at htarget
    have hne : u ≠ c.home threadHint := htarget
    simp [hne]
  | _ => simp [hu]

theorem ThreadSafeMove.unlocked {t : Option Nat} {h : η} {threadHint : Nat}
    (hmove : ThreadSafeMove c client s t h threadHint s') (u : Nat) :
    (s'.q.context u).unlocked = (s.q.context u).unlocked := by
  cases hmove with
  | push _ =>
    by_cases hu : u = c.home threadHint
    · simp [TPerThreadContext.unlocked, hu]
    · simp [hu]
  | full _ => rfl

theorem CallMove.unlocked {t : Nat} {back : Back η} {call : Call η}
    (hmove : CallMove c client s t back call s') {u : Nat} (hu : u ≠ call.target c t) :
    (s'.q.context u).unlocked = (s.q.context u).unlocked := by
  cases hmove with
  | taskReady h threadHint _ =>
    have hne : u ≠ c.home threadHint := hu
    simp [hne]
  | asyncSleep h threadHint =>
    have hne : u ≠ c.home threadHint := hu
    simp [hne]
  | threadSafe h threadHint hmove => exact hmove.unlocked u
  | _ => rfl

/-- A thread resumes only a handle that is stored there, and only from outside `resume()`. -/
theorem LoopMove.resumes {t : Nat} (hmove : LoopMove c client s t s') :
    s'.history.resumed = s.history.resumed ∨
    ∃ h, s'.history.resumed = s.history.resumed ++ [h] ∧ h ∈ s.q.stored t ∧
      s'.client = client.notify s.client (.resumed t h) ∧
      ∀ back inside, s.q.thread t ≠ .running back inside := by
  cases hmove with
  | batchResume h rest hpoint _ =>
    refine .inr ⟨h, rfl, ?_, rfl, by simp [hpoint]⟩
    simp [TTaskQueue.stored, hpoint, Point.held]
  | internalResume h rest hpoint hready =>
    refine .inr ⟨h, rfl, ?_, rfl, by simp [hpoint]⟩
    simp [TTaskQueue.stored, TPerThreadContext.held, hready]
  | inflightAdd _ =>
    obtain ⟨-, admitted, hhistory⟩ := inflightFetchAdd_rest (c := c) s t
    exact .inl (by rw [hhistory])
  | _ => exact .inl rfl

theorem Move.resumes {action : Action η ι} (hmove : Move c client s action s') :
    s'.history.resumed = s.history.resumed ∨
    ∃ t pick h, t < c.threadCount ∧ action = .loop t pick ∧
      s'.history.resumed = s.history.resumed ++ [h] ∧ h ∈ s.q.stored t ∧
      s'.client = client.notify s.client (.resumed t h) ∧
      ∀ back inside, s.q.thread t ≠ .running back inside := by
  cases hmove with
  | loop t pick ht hmove =>
    rcases hmove.resumes with hsame | ⟨h, hresumed⟩
    · exact .inl hsame
    · exact .inr ⟨t, pick, h, ht, rfl, hresumed⟩
  | call t call back state _ _ _ hmove =>
    refine .inl ?_
    cases hmove with
    | threadSafe _ _ hmove => cases hmove <;> rfl
    | _ => rfl
  | callOutside h threadHint state _ hmove => exact .inl (by cases hmove <;> rfl)
  | join hmove => exact .inl (by cases hmove <;> rfl)
  | _ => exact .inl rfl

end Touch

section Run

variable {η γ ι : Type} [DecidableEq η] {c : Config} {client : Client η γ ι} {s s' : System η γ}

/-- The number of contexts that `Join` is done with. -/
def JoinPoint.drained (c : Config) : JoinPoint → Nat
  | .draining k => k
  | .returned => c.threadCount
  | _ => 0

/-- How often a handle is in a context that `Join` is done with. -/
def TTaskQueue.lateCount (c : Config) (q : TTaskQueue η) (h : η) : Nat :=
  ∑ t ∈ range (q.join.drained c), (q.context t).held.count h

/-- The invariant of disposal: nothing is resumed or destroyed more often than it was accepted, and
what is in a context after `Join` is done with it was accepted after the stop request.  The last
field is lost when a handle is dropped. -/
structure Disposal (c : Config) (s : System η γ) : Prop where
  stopped : s.q.join ≠ .notCalled → s.q.stopRequested = true
  at_most : ∀ a, s.q.storedCount c a + s.history.resumed.count a + s.history.destroyed.count a ≤
    s.history.accepted.count a
  late : ∀ a, s.q.lateCount c a + s.history.acceptedBeforeStop.count a ≤
    s.history.accepted.count a

/-- No handle has been dropped while the process lives. -/
def Complete (c : Config) (s : System η γ) : Prop :=
  (∀ t < c.threadCount, s.q.thread t ≠ .terminated) → ∀ a, s.history.accepted.count a ≤
    s.q.storedCount c a + s.history.resumed.count a + s.history.destroyed.count a

omit [DecidableEq η] in
theorem Move.stopped {action : Action η ι} (hmove : Move c client s action s')
    (h : s.q.join ≠ .notCalled → s.q.stopRequested = true) :
    s'.q.join ≠ .notCalled → s'.q.stopRequested = true := by
  cases hmove with
  | loop t pick _ hmove => cases hmove <;> simpa using h
  | call t call back state _ _ _ hmove =>
    cases hmove with
    | threadSafe _ _ hmove => cases hmove <;> simpa using h
    | _ => simpa using h
  | callOutside _ _ state _ hmove => cases hmove <;> simpa using h
  | requestStop _ => exact fun _ => rfl
  | join hmove =>
    cases hmove with
    | joined hjoin _ => exact fun _ => h (by simp [hjoin])
    | destroy _ _ _ _ _ _ => exact h
    | nextContext _ hjoin _ _ => exact fun _ => h (by simp [hjoin])
    | returned _ hjoin _ => exact fun _ => h (by simp [hjoin])
  | _ => exact h

omit [DecidableEq η] in
/-- The process does not come back. -/
theorem Move.terminated {action : Action η ι} (hmove : Move c client s action s') {t : Nat}
    (h : s.q.thread t = .terminated) : s'.q.thread t = .terminated := by
  cases hmove with
  | loop u pick _ hmove =>
    by_cases ht : t = u
    · subst ht
      cases hmove
      all_goals simp_all
    · rw [hmove.frame.2.2 t ht, h]
  | call u call back state _ hpoint _ hmove =>
    by_cases ht : t = u
    · subst ht
      rw [h] at hpoint
      cases hpoint
    · rw [hmove.frame.2 t ht]
      exact h
  | callOutside _ _ state _ hmove =>
    rw [hmove.frame.2]
    exact h
  | ret u back state _ hpoint _ =>
    by_cases ht : t = u
    · subst ht
      rw [h] at hpoint
      cases hpoint
    · simpa [ht] using h
  | join hmove => cases hmove <;> exact h
  | _ => exact h

omit [DecidableEq η] in
theorem ThreadSafeMove.held {t : Option Nat} {h : η} {threadHint : Nat}
    (hmove : ThreadSafeMove c client s t h threadHint s') :
    s'.q.context = s.q.context ∧ s'.history.accepted = s.history.accepted ∨
    ∃ ctx : TPerThreadContext η, s'.q.context = Function.update s.q.context (c.home threadHint) ctx ∧
      ctx.held = (s.q.context (c.home threadHint)).held ++ [h] ∧
      s'.history.accepted = s.history.accepted ++ [h] := by
  cases hmove with
  | push _ => exact .inr ⟨_, rfl, by simp [TPerThreadContext.held], rfl⟩
  | full _ => exact .inl ⟨rfl, rfl⟩

theorem TTaskQueue.lateCount_of_live {q : TTaskQueue η} (hlive : q.Live) (a : η) :
    q.lateCount c a = 0 := by
  rcases hlive with hjoin | hjoin
  · simp [TTaskQueue.lateCount, hjoin, JoinPoint.drained]
  · simp [TTaskQueue.lateCount, hjoin, JoinPoint.drained]

/-- A handle that comes from outside may reach a context that `Join` is done with. -/
theorem ThreadSafeMove.late {t : Option Nat} {h : η} {threadHint : Nat}
    (hmove : ThreadSafeMove c client s t h threadHint s') (a : η) :
    s'.q.lateCount c a + s.history.accepted.count a ≤
      s.q.lateCount c a + s'.history.accepted.count a := by
  have hjoin := hmove.frame.1
  rcases hmove.held with ⟨hcontext, haccepted⟩ | ⟨ctx, hcontext, hheld, haccepted⟩
  · rw [TTaskQueue.lateCount, hjoin, hcontext, haccepted, TTaskQueue.lateCount]
  · rw [TTaskQueue.lateCount, hjoin, hcontext, haccepted, TTaskQueue.lateCount, List.count_append]
    by_cases htarget : c.home threadHint < s.q.join.drained c
    · have hsum := sum_range_step
        (f := fun i => (s.q.context i).held.count a)
        (g := fun i => (Function.update s.q.context (c.home threadHint) ctx i).held.count a) htarget
        fun i hi => by simp only [Function.update_of_ne hi]
      simp only [Function.update_self, hheld, List.count_append] at hsum
      omega
    · have hsame : ∑ i ∈ range (s.q.join.drained c),
          (Function.update s.q.context (c.home threadHint) ctx i).held.count a =
          ∑ i ∈ range (s.q.join.drained c), (s.q.context i).held.count a := by
        refine sum_congr rfl fun i hi => ?_
        have hne : i ≠ c.home threadHint := by
          rintro rfl
          exact htarget (mem_range.1 hi)
        rw [Function.update_of_ne hne]
      rw [hsame]
      omega

theorem JoinMove.late (hmove : JoinMove c s s') (a : η) :
    s'.q.lateCount c a ≤ s.q.lateCount c a := by
  cases hmove with
  | joined _ _ => simp [TTaskQueue.lateCount, System.setJoin, TTaskQueue.setJoin, JoinPoint.drained]
  | destroy k h ctx hjoin _ _ =>
    refine le_of_eq (sum_congr ?_ fun i hi => ?_)
    · simp
    · have hne : i ≠ k := by
        rintro rfl
        simp [hjoin, JoinPoint.drained] at hi
      simp [hne]
  | nextContext k hjoin _ hnext =>
    have hempty := drainNext_eq_none hnext
    simp [TTaskQueue.lateCount, System.setJoin, TTaskQueue.setJoin, JoinPoint.drained, hjoin,
      sum_range_succ, hempty]
  | returned k hjoin hk =>
    simp only [TTaskQueue.lateCount, System.setJoin, TTaskQueue.setJoin, JoinPoint.drained, hjoin]
    exact sum_le_sum_of_subset (range_mono (Nat.not_lt.1 hk))

theorem Disposal.step {action : Action η ι} (h : Disposal c s) (hsettled : s.q.Settled c)
    (hmove : Move c client s action s') : Disposal c s' where
  stopped := hmove.stopped h.stopped
  at_most := by
    intro a
    obtain ⟨dropped, hbalance, -⟩ := hmove.balance
    have hcount := hbalance a
    have hold := h.at_most a
    omega
  late := by
    intro a
    obtain ⟨come, haccepted, hbefore⟩ := hmove.accepts
    have hold := h.late a
    have hmore : s.history.accepted.count a + s'.history.acceptedBeforeStop.count a ≤
        s'.history.accepted.count a + s.history.acceptedBeforeStop.count a := by
      rw [haccepted, hbefore, List.count_append, List.count_append]
      split
      · simp only [List.count_nil]
        omega
      · omega
    by_cases hlive' : s'.q.Live
    · rw [TTaskQueue.lateCount_of_live hlive']
      omega
    · cases hmove with
      | loop t pick ht hmove =>
        have hdead : ¬s.q.Live := by rwa [TTaskQueue.Live, hmove.frame.1] at hlive'
        exact absurd (hsettled hdead t ht) hmove.frame.2.1
      | call t call back state ht hpoint _ hmove =>
        have hdead : ¬s.q.Live := by rwa [TTaskQueue.Live, hmove.frame.1] at hlive'
        rw [hsettled hdead t ht] at hpoint
        cases hpoint
      | callOutside b threadHint state _ hmove =>
        have hlate := hmove.late a
        have hdead : ¬s.q.Live := by rwa [TTaskQueue.Live, hmove.frame.1] at hlive'
        have hstop := h.stopped fun hjoin => hdead (.inl hjoin)
        simp only [hstop, if_true, List.append_nil] at hbefore
        rw [hbefore]
        have hsame : (s.setClient state).history = s.history := rfl
        rw [hsame, System.setClient_q] at hlate
        omega
      | requestStop _ => exact absurd (.inr rfl) hlive'
      | join hmove =>
        have hlate := hmove.late a
        omega
      | _ => exact hold

theorem Complete.step {action : Action η ι} (h : Complete c s) (hkeeps : Keeps c s action)
    (hmove : Move c client s action s') : Complete c s' := by
  intro halive a
  obtain ⟨dropped, hbalance, hnone⟩ := hmove.balance
  obtain rfl := hnone hkeeps halive
  have hcount := hbalance a
  have hold := h (fun t ht hpoint => halive t ht (hmove.terminated hpoint)) a
  simp only [List.count_nil] at hcount
  omega

theorem start_disposal (state : γ) : Disposal c (System.start state : System η γ) where
  stopped := fun hjoin => absurd rfl hjoin
  at_most := by
    simp [System.start, TTaskQueue.started, History.empty, TTaskQueue.storedCount,
      TTaskQueue.stored, Point.held, TPerThreadContext.held, TPerThreadContext.empty]
  late := by
    simp [System.start, TTaskQueue.started, History.empty, TTaskQueue.lateCount,
      JoinPoint.drained]

/-- What is stored when `Join` has returned is in a context that it is done with. -/
theorem storedCount_of_returned (hsettled : s.q.Settled c) (hjoin : s.q.join = .returned) (a : η) :
    s.q.storedCount c a = s.q.lateCount c a := by
  have hexited := hsettled (by simp [TTaskQueue.Live, hjoin])
  rw [TTaskQueue.storedCount, TTaskQueue.lateCount, hjoin, JoinPoint.drained]
  refine sum_congr rfl fun t ht => ?_
  rw [TTaskQueue.stored, hexited t (mem_range.1 ht)]
  rfl

/-- When `Join` has returned in a run that loses no handle, every handle accepted before the stop
request has been resumed or destroyed, and at no time has a handle been resumed and destroyed more
often than it was accepted; a handle that was accepted once, before the stop request, has been
resumed or destroyed exactly once. -/
theorem run_disposes_of_keeps {init : γ → Prop} {s₀ : System η γ} {actions : List (Action η ι)}
    (hinit : (lts c client init).init s₀)
    (hrun : ((lts c client init).guard (Keeps c)).Run s₀ actions s) (a : η) :
    s.history.resumed.count a + s.history.destroyed.count a ≤ s.history.accepted.count a ∧
    (s.q.join = .returned →
      s.history.acceptedBeforeStop.count a ≤
        s.history.resumed.count a + s.history.destroyed.count a ∧
      (a ∈ s.history.acceptedBeforeStop → s.history.accepted.count a = 1 →
        s.history.resumed.count a + s.history.destroyed.count a = 1)) := by
  have hstart : Disposal c s₀ ∧ Complete c s₀ ∧ s₀.q.Settled c := by
    obtain ⟨state, -, rfl⟩ := hinit
    exact ⟨start_disposal state, fun _ a => Nat.zero_le _, start_settled state⟩
  obtain ⟨hdisposal, hcomplete, hsettled⟩ := hrun.preserves
    (I := fun s => Disposal c s ∧ Complete c s ∧ s.q.Settled c) (by
      rintro s action s' ⟨hdisposal, hcomplete, hsettled⟩ ⟨hstep, hkeeps⟩
      have hmove := step_move hstep
      exact ⟨hdisposal.step hsettled hmove, hcomplete.step hkeeps hmove,
        step_settled hsettled hstep⟩) hstart
  have hatmost := hdisposal.at_most a
  refine ⟨by omega, fun hjoin => ?_⟩
  have hexited := hsettled (by simp [TTaskQueue.Live, hjoin])
  have hall := hcomplete (fun t ht => by simp [hexited t ht]) a
  have hlate := hdisposal.late a
  rw [storedCount_of_returned hsettled hjoin] at hall
  refine ⟨by omega, fun hmem honce => ?_⟩
  have hpos := List.count_pos_iff.2 hmem
  omega

end Run

/-- Thread 0 resumes handle 0, handle 1 goes to sleep, and the stop request comes: `Join` destroys
handle 1. -/
def stopWhileAsleep : List (Action (Fin 2) Empty) :=
  ([.call none (.taskReadyThreadSafe ⟨0, Nat.zero_lt_two⟩ 0), .loop 0 none, .loop 0 none,
    .call (some 0) (.asyncSleep ⟨1, Nat.one_lt_two⟩ 0), .requestStop,
    .ret 0] : List (Action (Fin 2) Empty)) ++
  List.replicate 5 (Action.loop 0 none) ++ List.replicate 4 Action.join

section Decide

variable {η γ ι : Type} {c : Config} {s : System η γ} {a : Action η ι}

/-- `Keeps` as a test. -/
def keeps (c : Config) (s : System η γ) : Action η ι → Bool
  | .loop t _ =>
    match s.q.thread t with
    | .batch (_ :: _) => !s.q.stopRequested
    | .inflightPush _ => decide ((s.q.context t).readyTasksInternal.length < c.internalCapacity)
    | _ => true
  | _ => true

theorem keeps_iff : keeps c s a = true ↔ Keeps c s a := by
  unfold keeps Keeps
  split
  · split <;> simp
  · simp

instance : Decidable (Keeps c s a) := decidable_of_iff _ keeps_iff

end Decide

theorem run_disposes_of_keeps_asleep :
    ∃ s : System (Fin 2) Unit,
      ((lts oneSlot (Client.any (Fin 2)) fun _ => True).guard (Keeps oneSlot)).Run (.start ())
        stopWhileAsleep s ∧ s.q.join = .returned ∧ 1 ∈ s.history.acceptedBeforeStop ∧
      s.history.resumed.count 1 + s.history.destroyed.count 1 = 1 := by
  let next := fun s a => if Keeps oneSlot s a then step oneSlot (Client.any (Fin 2)) s a else none
  let s := (stopWhileAsleep.foldlM next (.start ())).get (by decide +kernel)
  have hrun : ((lts oneSlot (Client.any (Fin 2)) fun _ => True).guard (Keeps oneSlot)).Run
      (.start ()) stopWhileAsleep s := Lts.run_guard_of_foldlM (Option.some_get _).symm
  have hjoin : s.q.join = .returned := by decide +kernel
  have hbefore : 1 ∈ s.history.acceptedBeforeStop := by decide +kernel
  exact ⟨s, hrun, hjoin, hbefore,
    ((run_disposes_of_keeps ⟨(), trivial, rfl⟩ hrun 1).2 hjoin).2 hbefore (by decide +kernel)⟩

/-- The stop request comes while thread 0 runs handle 0, the first of its batch. -/
def stopInsideBatch : List (Action (Fin 2) Empty) :=
  ([.call none (.taskReadyThreadSafe ⟨0, Nat.zero_lt_two⟩ 0),
    .call none (.taskReadyThreadSafe ⟨1, Nat.one_lt_two⟩ 0), .loop 0 none, .loop 0 none,
    .requestStop, .ret 0] : List (Action (Fin 2) Empty)) ++
  List.replicate 5 (Action.loop 0 none) ++ List.replicate 3 Action.join

/-- Handle 1, the second of the batch, is neither resumed nor destroyed. -/
theorem batch_rest_is_dropped :
    ∃ s : System (Fin 2) Unit,
      (lts oneSlot (Client.any (Fin 2)) fun _ => True).Run (.start ()) stopInsideBatch s ∧
      s.q.join = .returned ∧ 1 ∈ s.history.acceptedBeforeStop ∧
      s.history.resumed.count 1 + s.history.destroyed.count 1 = 0 := by
  let next := step oneSlot (Client.any (Fin 2))
  let s := (stopInsideBatch.foldlM next (.start ())).get (by decide +kernel)
  exact ⟨s, Lts.run_of_foldlM (Option.some_get _).symm, by decide +kernel, by decide +kernel,
    by decide +kernel⟩

end Tpcc.TaskQueue
