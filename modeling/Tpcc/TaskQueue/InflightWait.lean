import Tpcc.TaskQueue.Waiting

/-! `InternalInflightWaitTimeMs`: what `RunThread` records of the waiting times that
`ProcessInflightQueue` measures.  A pass has one optional for them, and the iteration records it at
its end. -/

namespace Tpcc.TaskQueue

open Lib

/-- The measurements of a thread: the waiting time of the task that `TryPop` gave last, the optional
of the iteration, the samples in the histogram, and the tasks that have been moved to
`ReadyTasksInternal`, each with its own waiting time. -/
structure Meter (η : Type) where
  elapsedMs : Nat
  internalInflightWaitTimeMs : Option Nat
  samples : List Nat
  moved : List (η × Nat)

namespace Meter

variable {η : Type}

def new : Meter η := ⟨0, none, [], []⟩

/-- `TryPop` gives a task that has waited `elapsedMs`. -/
def pop (m : Meter η) (elapsedMs : Nat) : Meter η :=
  { m with elapsedMs := elapsedMs, internalInflightWaitTimeMs := some elapsedMs }

/-- The task is moved. -/
def move (m : Meter η) (h : η) : Meter η := { m with moved := m.moved ++ [(h, m.elapsedMs)] }

/-- The end of an iteration, and the optional of the next one. -/
def record (m : Meter η) : Meter η :=
  { m with
    samples := m.samples ++ m.internalInflightWaitTimeMs.toList
    internalInflightWaitTimeMs := none }

/-- What the next step in `RunThread` measures; `elapsedMs` is the waiting time of the task that it
pops. -/
def loop (c : Config) (ctx : TPerThreadContext η) (point : Point η) (elapsedMs : Nat)
    (m : Meter η) : Meter η :=
  match point with
  | .inflightCompare prev =>
    if prev < c.maxRunningInternal ∧ ctx.inflightWaitingTasksInternal ≠ [] then m.pop elapsedMs
    else m
  | .inflightPush h =>
    if ctx.readyTasksInternal.length < c.internalCapacity then m.move h else m
  | .internal => if ctx.readyTasksInternal = [] then m.record else m
  | _ => m

/-- What the return of a resumed coroutine measures. -/
def ret (point : Point η) (m : Meter η) : Meter η :=
  match point with
  | .running .internal .client => m.record
  | _ => m

end Meter

structure Metered (η γ : Type) where
  system : System η γ
  meter : Nat → Meter η

section Step

variable {η γ ι : Type} (c : Config) (client : Client η γ ι)

/-- The measurements of a step. -/
def measure (s : Metered η γ) (elapsedMs : Nat) : Action η ι → Nat → Meter η
  | .loop t _ =>
    Function.update s.meter t
      ((s.meter t).loop c (s.system.q.context t) (s.system.q.thread t) elapsedMs)
  | .ret t => Function.update s.meter t ((s.meter t).ret (s.system.q.thread t))
  | _ => s.meter

/-- A step of the queue, with the waiting time of the task that it pops. -/
def meteredStep (s : Metered η γ) (a : Action η ι × Nat) : Option (Metered η γ) :=
  (step c client s.system a.1).map fun system => ⟨system, measure c s a.2 a.1⟩

/-- A queue right after `Run()`. -/
def Metered.start (state : γ) : Metered η γ := ⟨.start state, fun _ => .new⟩

/-- The runs of a task queue with its measurements. -/
def meteredLts (init : γ → Prop) : Lts (Metered η γ) (Action η ι × Nat) :=
  .ofAction (fun s => ∃ state, init state ∧ s = .start state) (meteredStep c client)

end Step

/-- Between two iterations of a thread, and after its last one, there is one sample for each task that
it has moved, the task's own waiting time. -/
def Measured {η γ : Type} (c : Config) (s : Metered η γ) : Prop :=
  ∀ t < c.threadCount, s.system.q.thread t = .top ∨ s.system.q.thread t = .exited →
    (s.meter t).samples = (s.meter t).moved.map Prod.snd

/-- The step pops no second task in the same iteration, and the task that it pushes has room. -/
def Alone {η γ ι : Type} (c : Config) (s : Metered η γ) : Action η ι × Nat → Prop
  | (.loop t _, _) =>
    match s.system.q.thread t with
    | .inflightCompare prev =>
      prev < c.maxRunningInternal → (s.system.q.context t).inflightWaitingTasksInternal ≠ [] →
        (s.meter t).internalInflightWaitTimeMs = none
    | .inflightPush _ =>
      (s.system.q.context t).readyTasksInternal.length < c.internalCapacity
    | _ => True
  | _ => True

/-- The waiting times of the moved tasks are in the histogram, but for the one that the iteration has
still to record; between the pop and the push that one is not moved yet. -/
def Meter.Exact {η : Type} (m : Meter η) : Point η → Prop
  | .inflightPush _ => m.internalInflightWaitTimeMs = some m.elapsedMs ∧
      m.samples = m.moved.map Prod.snd
  | .top | .exited => m.internalInflightWaitTimeMs = none ∧ m.samples = m.moved.map Prod.snd
  | _ => m.samples ++ m.internalInflightWaitTimeMs.toList = m.moved.map Prod.snd

section Invariant

variable {η γ ι : Type} {c : Config} {client : Client η γ ι}

theorem Meter.Exact.record {m : Meter η}
    (h : m.samples ++ m.internalInflightWaitTimeMs.toList = m.moved.map Prod.snd) :
    m.record.Exact .top := ⟨rfl, h⟩

/-- A thread keeps its measurements exact in a step that pops no second task and does not drop the
one that it pushes. -/
theorem Meter.Exact.loop {s s' : System η γ} {t : Nat} {m : Meter η} (elapsedMs : Nat)
    (h : m.Exact (s.q.thread t)) (hmove : LoopMove c client s t s')
    (hpop : ∀ prev, s.q.thread t = .inflightCompare prev → prev < c.maxRunningInternal →
      (s.q.context t).inflightWaitingTasksInternal ≠ [] → m.internalInflightWaitTimeMs = none)
    (hroom : ∀ b, s.q.thread t = .inflightPush b →
      (s.q.context t).readyTasksInternal.length < c.internalCapacity) :
    (m.loop c (s.q.context t) (s.q.thread t) elapsedMs).Exact (s'.q.thread t) := by
  cases hmove with
  | exit hpoint _ =>
    rw [hpoint] at h
    simpa [Meter.loop, hpoint, Meter.Exact] using h
  | drain hpoint _ =>
    rw [hpoint] at h
    obtain ⟨hnone, hsame⟩ := h
    simp [Meter.loop, hpoint, Meter.Exact, hnone, hsame]
  | inflightPop prev b rest hpoint hprev hwaiting =>
    -- the optional is free for the waiting time of this task
    have hnone := hpop prev hpoint hprev (by simp [hwaiting])
    rw [hpoint] at h
    simp only [Meter.Exact, hnone, Option.toList_none, List.append_nil] at h
    simp [Meter.loop, hpoint, hprev, hwaiting, Meter.pop, Meter.Exact, h]
  | inflightMiss prev hpoint hprev hwaiting =>
    rw [hpoint] at h
    simpa [Meter.loop, hpoint, hwaiting, Meter.Exact] using h
  | inflightReject prev hpoint hprev =>
    rw [hpoint] at h
    simpa [Meter.loop, hpoint, hprev, Meter.Exact] using h
  | inflightPush b hpoint hfits =>
    rw [hpoint] at h
    obtain ⟨hsome, hsame⟩ := h
    simp [Meter.loop, hpoint, hfits, Meter.move, Meter.Exact, hsome, hsame]
  | inflightDrop b hpoint hfull => exact absurd (hroom b hpoint) (Nat.not_lt.2 hfull)
  | internalResume b rest hpoint hready =>
    rw [hpoint] at h
    simpa [Meter.loop, hpoint, hready, Meter.Exact] using h
  | internalNone hpoint hready =>
    rw [hpoint] at h
    simpa [Meter.loop, hpoint, hready] using Meter.Exact.record h
  | batchDone hpoint | batchBreak _ _ hpoint _ | batchResume _ _ hpoint _ | inflightEnter hpoint
  | inflightLeave hpoint | inflightAdd hpoint | inflightUndo hpoint | awaken _ _ hpoint
  | awakenFull _ _ hpoint | sleepDone hpoint | incAdmit _ _ _ _ hpoint | incReject _ _ _ _ hpoint
  | incUndo _ _ _ hpoint | incRefuse _ _ _ hpoint | incThrow _ _ _ hpoint =>
    -- a step from one point to another at which the optional may be set
    rw [hpoint] at h
    simpa [Meter.loop, hpoint, Meter.Exact] using h

/-- A call of a resumed coroutine leaves it running. -/
theorem CallMove.point {s s' : System η γ} {t : Nat} {back : Back η} {call : Call η}
    (hmove : CallMove c client s t back call s') (hpoint : s.q.thread t = .running back .client) :
    ∃ inside, s'.q.thread t = .running back inside := by
  cases hmove with
  | threadSafe h threadHint hmove => exact ⟨.client, by rw [hmove.frame.2, hpoint]⟩
  | incTake h threadHint _ => exact ⟨_, by simp; rfl⟩
  | incExceed h threadHint _ => exact ⟨_, by simp; rfl⟩
  | _ => exact ⟨.client, by simpa using hpoint⟩

/-- The measurements of the queue's threads. -/
def AllExact (c : Config) (s : Metered η γ) : Prop :=
  ∀ t < c.threadCount, (s.meter t).Exact (s.system.q.thread t)

theorem JoinMove.thread {s s' : System η γ} (hmove : JoinMove c s s') :
    s'.q.thread = s.q.thread := by
  cases hmove <;> rfl

theorem AllExact.step {s s' : Metered η γ} {a : Action η ι × Nat} (h : AllExact c s)
    (halone : Alone c s a) (hstep : meteredStep c client s a = some s') : AllExact c s' := by
  obtain ⟨a, elapsedMs⟩ := a
  obtain ⟨system, hsystem, rfl⟩ := Option.map_eq_some_iff.1 hstep
  intro i hi
  cases step_move hsystem with
  | loop t pick ht hmove =>
    by_cases hit : i = t
    · subst hit
      simp only [measure, Function.update_self]
      refine (h i hi).loop elapsedMs hmove (fun prev hpoint => ?_) fun b hpoint => ?_
      · simpa [Alone, hpoint] using halone
      · simpa [Alone, hpoint] using halone
    · simp only [measure, Function.update_of_ne hit, hmove.frame.2.2 i hit]
      exact h i hi
  | call t call back state ht hpoint _ hmove =>
    simp only [measure]
    by_cases hit : i = t
    · subst hit
      obtain ⟨inside, hinside⟩ := hmove.point hpoint
      have hexact := h i hi
      rw [hpoint] at hexact
      rw [hinside]
      exact hexact
    · rw [hmove.frame.2 i hit]
      exact h i hi
  | callOutside b threadHint state _ hmove =>
    simp only [measure, hmove.frame.2]
    exact h i hi
  | ret t back state ht hpoint _ =>
    by_cases hit : i = t
    · subst hit
      have hexact := h i hi
      rw [hpoint] at hexact
      cases back with
      | batch rest => simpa [measure, hpoint, Meter.ret, Back.point, Meter.Exact] using hexact
      | internal =>
        simpa [measure, hpoint, Meter.ret, Back.point] using Meter.Exact.record hexact
    · simpa [measure, hit] using h i hi
  | own j state _ => exact h i hi
  | wakeup => exact h i hi
  | requestStop _ => exact h i hi
  | join hmove =>
    simp only [measure, hmove.thread]
    exact h i hi

theorem AllExact.measured {s : Metered η γ} (h : AllExact c s) : Measured c s := by
  intro t ht hpoint
  have hexact := h t ht
  obtain hpoint | hpoint := hpoint <;> rw [hpoint] at hexact <;> exact hexact.2

theorem allExact_start (state : γ) : AllExact c (.start state : Metered η γ) :=
  fun _ _ => ⟨rfl, rfl⟩

/-- In every run in which no iteration pops a second task, and none drops a task, every task that is
moved is measured. -/
theorem run_measured {init : γ → Prop} {s₀ s : Metered η γ} {actions : List (Action η ι × Nat)}
    (hinit : (meteredLts c client init).init s₀)
    (hrun : ((meteredLts c client init).guard (Alone c)).Run s₀ actions s) : Measured c s := by
  obtain ⟨state, -, rfl⟩ := hinit
  refine AllExact.measured (hrun.preserves (I := AllExact c) ?_ (allExact_start state))
  rintro s action s' h ⟨hstep, halone⟩
  exact h.step halone hstep

end Invariant

instance {η γ ι : Type} {c : Config} (s : Metered η γ) (a : Action η ι × Nat) :
    Decidable (Alone c s a) := by
  unfold Alone
  split
  · split <;> infer_instance
  · infer_instance

/-- One thread and two slots. -/
def twoSlots : Config :=
  { oneSlot with maxRunningInternal := 2, maxReadyInternal := 4, maxReadyExternal := 4 }

/-- Handle 0 is resumed; 1 and 2 take the slots, and 3 and 4 have to wait. -/
def twoWaiting : List (Action Nat Empty × Nat) :=
  ([.call none (.taskReadyThreadSafe 0 0), .loop 0 none, .loop 0 none,
    .call (some 0) (.incInflight 1 0), .loop 0 none, .call (some 0) (.incInflight 2 0),
    .loop 0 none, .call (some 0) (.incInflight 3 0), .loop 0 none, .loop 0 none, .loop 0 none,
    .call (some 0) (.incInflight 4 0), .loop 0 none, .loop 0 none, .loop 0 none] :
      List (Action Nat Empty)).map (·, 0)

/-- The slot of handle 1 becomes free, and the pass moves handle 3 after 5 ms. -/
def oneMoved : List (Action Nat Empty × Nat) :=
  twoWaiting ++
    ([.call (some 0) (.decInflight 1), .ret 0, .loop 0 none, .loop 0 none, .loop 0 none,
      .loop 0 none, .loop 0 none, .loop 0 none, .loop 0 none, .loop 0 none, .ret 0] :
        List (Action Nat Empty)).map (·, 5)

/-- `.top` as a test. -/
def Point.isTop {η : Type} : Point η → Bool
  | .top => true
  | _ => false

theorem Point.eq_top {η : Type} {point : Point η} (h : point.isTop = true) : point = .top := by
  cases point <;> first | rfl | cases h

theorem run_measured_one_moved :
    ∃ s : Metered Nat Unit,
      ((meteredLts twoSlots (Client.any Nat) fun _ => True).guard (Alone twoSlots)).Run
        (.start ()) oneMoved s ∧ (s.meter 0).moved = [(3, 5)] ∧ (s.meter 0).samples = [5] := by
  let next := fun s a =>
    if Alone twoSlots s a then meteredStep twoSlots (Client.any Nat) s a else none
  let s := (oneMoved.foldlM next (.start ())).get (by decide +kernel)
  have hrun : ((meteredLts twoSlots (Client.any Nat) fun _ => True).guard (Alone twoSlots)).Run
      (.start ()) oneMoved s := Lts.run_guard_of_foldlM (Option.some_get _).symm
  have hmoved : (s.meter 0).moved = [(3, 5)] := by decide +kernel
  have htop : s.system.q.thread 0 = .top := Point.eq_top (by decide +kernel)
  have hmeasured := run_measured ⟨(), trivial, rfl⟩ hrun 0 (by decide) (.inl htop)
  exact ⟨s, hrun, hmoved, by rw [hmeasured, hmoved]; rfl⟩

/-- Both slots become free, and the pass moves handle 3 after 5 ms and handle 4 after 7 ms. -/
def twoMoved : List (Action Nat Empty × Nat) :=
  twoWaiting ++
    ([.call (some 0) (.decInflight 1), .call (some 0) (.decInflight 2), .ret 0, .loop 0 none,
      .loop 0 none, .loop 0 none, .loop 0 none, .loop 0 none] :
        List (Action Nat Empty)).map (·, 5) ++
    ([.loop 0 none, .loop 0 none, .loop 0 none, .loop 0 none, .loop 0 none, .loop 0 none,
      .loop 0 none, .ret 0] : List (Action Nat Empty)).map (·, 7)

/-- Two tasks have been moved, and there is one sample. -/
theorem two_moved_one_sample :
    ∃ s : Metered Nat Unit,
      (meteredLts twoSlots (Client.any Nat) fun _ => True).Run (.start ()) twoMoved s ∧
      (s.meter 0).moved = [(3, 5), (4, 7)] ∧ (s.meter 0).samples = [7] ∧
      ¬Measured twoSlots s := by
  let next := meteredStep twoSlots (Client.any Nat)
  let s := (twoMoved.foldlM next (.start ())).get (by decide +kernel)
  have hrun : (meteredLts twoSlots (Client.any Nat) fun _ => True).Run (.start ()) twoMoved s :=
    Lts.run_of_foldlM (Option.some_get _).symm
  have hmoved : (s.meter 0).moved = [(3, 5), (4, 7)] := by decide +kernel
  have hsamples : (s.meter 0).samples = [7] := by decide +kernel
  have htop : s.system.q.thread 0 = .top := Point.eq_top (by decide +kernel)
  refine ⟨s, hrun, hmoved, hsamples, fun h => ?_⟩
  have hmeasured := h 0 (by decide) (.inl htop)
  rw [hmoved, hsamples] at hmeasured
  exact absurd hmeasured (by decide)

end Tpcc.TaskQueue
