import Mathlib.Data.List.Nodup
import Mathlib.Data.List.Range
import Mathlib.Logic.Function.Basic
import Tpcc.Lib.Transition

/-! `TThreadPool`: tasks submitted from outside and from running tasks, the workers, and one `Join`.
What runs under the mutex is one step, and a task is its number in the order of submission.  A worker
that waits for `CV` may look at the queue at any moment. -/

namespace Tpcc.ThreadPool

open Lib

/-- A worker: at the top of `WorkerLoop`, inside a task, or returned. -/
inductive Worker
  | waiting
  | running (task : Nat)
  | exited
  deriving DecidableEq

/-- `Join`: not called, about to join the thread `next`, or returned. -/
inductive Join
  | notCalled
  | joining (next : Nat)
  | returned
  deriving DecidableEq

/-- A call of `Submit`: the worker whose task makes it, and whether `Stopped` was not yet set. -/
structure Submission (n : Nat) where
  origin : Option (Fin n)
  beforeStop : Bool
  deriving DecidableEq

/-- A pool of `n` threads, with the tasks submitted, dequeued and finished so far, in order. -/
structure TThreadPool (n : Nat) where
  tasks : List Nat
  stopped : Bool
  worker : Fin n → Worker
  join : Join
  submitted : List (Submission n)
  dequeued : List Nat
  finished : List Nat

/-- A call of `Submit`, the locked section of a worker's loop, the end of a worker's task, or the next
step of `Join`. -/
inductive Action (n : Nat)
  | submit (origin : Option (Fin n))
  | dequeue (w : Fin n)
  | finish (w : Fin n)
  | join
  deriving DecidableEq

namespace TThreadPool

variable {n : Nat}

def new (n : Nat) : TThreadPool n where
  tasks := []
  stopped := false
  worker _ := .waiting
  join := .notCalled
  submitted := []
  dequeued := []
  finished := []

def submit (s : TThreadPool n) (origin : Option (Fin n)) : TThreadPool n :=
  { s with
    tasks := s.tasks ++ [s.submitted.length]
    submitted := s.submitted ++ [⟨origin, !s.stopped⟩] }

/-- The locked section of `WorkerLoop`; `none` while the worker has to wait. -/
def dequeue (s : TThreadPool n) (w : Fin n) : Option (TThreadPool n) :=
  if s.stopped = false ∧ s.tasks = [] then none
  else
    match s.tasks with
    | [] => some { s with worker := Function.update s.worker w .exited }
    | task :: tasks =>
      some { s with
        tasks := tasks
        worker := Function.update s.worker w (.running task)
        dequeued := s.dequeued ++ [task] }

def step (s : TThreadPool n) : Action n → Option (TThreadPool n)
  | .submit none => some (s.submit none)
  | .submit (some w) =>
    match s.worker w with
    | .running _ => some (s.submit (some w))
    | _ => none
  | .dequeue w =>
    match s.worker w with
    | .waiting => s.dequeue w
    | _ => none
  | .finish w =>
    match s.worker w with
    | .running task =>
      some { s with
        worker := Function.update s.worker w .waiting
        finished := s.finished ++ [task] }
    | _ => none
  | .join =>
    match s.join with
    | .notCalled => some { s with stopped := true, join := .joining 0 }
    | .joining next =>
      if h : next < n then
        if s.worker ⟨next, h⟩ = .exited then some { s with join := .joining (next + 1) } else none
      else some { s with join := .returned }
    | .returned => none

end TThreadPool

def lts (n : Nat) : Lts (TThreadPool n) (Action n) :=
  .ofAction (· = .new n) TThreadPool.step

section Steps

variable {n : Nat} {s s' : TThreadPool n}

/-- What a step does. -/
inductive Move (s : TThreadPool n) : Action n → TThreadPool n → Prop
  | submit (origin : Option (Fin n)) (horigin : ∀ w ∈ origin, ∃ task, s.worker w = .running task) :
      Move s (.submit origin) (s.submit origin)
  | take (w : Fin n) {task : Nat} {tasks : List Nat} (hworker : s.worker w = .waiting)
      (htasks : s.tasks = task :: tasks) :
      Move s (.dequeue w) { s with
        tasks := tasks
        worker := Function.update s.worker w (.running task)
        dequeued := s.dequeued ++ [task] }
  | exit (w : Fin n) (hworker : s.worker w = .waiting) (hstopped : s.stopped = true)
      (htasks : s.tasks = []) :
      Move s (.dequeue w) { s with worker := Function.update s.worker w .exited }
  | finish (w : Fin n) {task : Nat} (hworker : s.worker w = .running task) :
      Move s (.finish w) { s with
        worker := Function.update s.worker w .waiting
        finished := s.finished ++ [task] }
  | stop (hjoin : s.join = .notCalled) :
      Move s .join { s with stopped := true, join := .joining 0 }
  | joined {next : Nat} (h : next < n) (hjoin : s.join = .joining next)
      (hworker : s.worker ⟨next, h⟩ = .exited) :
      Move s .join { s with join := .joining (next + 1) }
  | returned {next : Nat} (h : n ≤ next) (hjoin : s.join = .joining next) :
      Move s .join { s with join := .returned }

theorem step_move {action : Action n} (h : s.step action = some s') : Move s action s' := by
  cases action with
  | submit origin =>
    cases origin with
    | none =>
      cases h
      exact .submit none (by simp)
    | some w =>
      simp only [TThreadPool.step] at h
      split at h
      · next task hworker =>
        cases h
        exact .submit (some w) fun v hv => ⟨task, by rw [← Option.mem_some_iff.1 hv, hworker]⟩
      · cases h
  | dequeue w =>
    simp only [TThreadPool.step, TThreadPool.dequeue] at h
    split at h
    · next hworker =>
      split at h
      · cases h
      · next hpredicate =>
        split at h
        · next htasks =>
          cases h
          exact .exit w hworker (by simpa [htasks] using hpredicate) htasks
        · next htasks =>
          cases h
          exact .take w hworker htasks
    · cases h
  | finish w =>
    simp only [TThreadPool.step] at h
    split at h
    · next hworker =>
      cases h
      exact .finish w hworker
    · cases h
  | join =>
    simp only [TThreadPool.step] at h
    split at h
    · next hjoin =>
      cases h
      exact .stop hjoin
    · next next hjoin =>
      split at h
      · next hlt =>
        split at h
        · next hworker =>
          cases h
          exact .joined hlt hjoin hworker
        · cases h
      · next hge =>
        cases h
        exact .returned (Nat.le_of_not_lt hge) hjoin
    · cases h

end Steps

/-- Every task is in the queue, inside one worker, or finished, and the queue is in order. -/
structure Accounted {n : Nat} (s : TThreadPool n) : Prop where
  order : s.dequeued ++ s.tasks = List.range s.submitted.length
  nodup : s.finished.Nodup
  finished : ∀ task ∈ s.finished, task ∈ s.dequeued
  running : ∀ w task, s.worker w = .running task → task ∈ s.dequeued ∧ task ∉ s.finished
  unique : ∀ v w task, s.worker v = .running task → s.worker w = .running task → v = w
  dequeued : ∀ task ∈ s.dequeued, task ∈ s.finished ∨ ∃ w, s.worker w = .running task

/-- A worker that has returned leaves no task in the queue that was submitted before `Stopped` was
set or by one of its own tasks, and `Join` has seen the workers return that it has joined. -/
structure Drained {n : Nat} (s : TThreadPool n) : Prop where
  exited : ∀ w, s.worker w = .exited → s.stopped = true ∧ ∀ task ∈ s.tasks,
    ∀ submission, s.submitted[task]? = some submission →
      submission.beforeStop = false ∧ submission.origin ≠ some w
  joined : ∀ next, s.join = .joining next → ∀ w : Fin n, w.val < next → s.worker w = .exited
  returned : s.join = .returned → ∀ w, s.worker w = .exited

section Invariant

variable {n : Nat} {s s' : TThreadPool n} {action : Action n}

theorem Accounted.task_lt (h : Accounted s) {task : Nat} (hmem : task ∈ s.tasks) :
    task < s.submitted.length := by
  rw [← List.mem_range, ← h.order]
  exact List.mem_append_right _ hmem

theorem Accounted.fresh (h : Accounted s) {task : Nat} {tasks : List Nat}
    (htasks : s.tasks = task :: tasks) : task ∉ s.dequeued := by
  have hnodup : (s.dequeued ++ s.tasks).Nodup := h.order ▸ List.nodup_range
  rw [htasks] at hnodup
  exact fun hmem => List.disjoint_of_nodup_append hnodup hmem List.mem_cons_self

/-- A worker that leaves its task or returns runs none, and the others run what they ran. -/
theorem update_running {worker : Fin n → Worker} {w v : Fin n} {state : Worker} {task : Nat}
    (hstate : ∀ task, state ≠ .running task) :
    Function.update worker w state v = .running task ↔ v ≠ w ∧ worker v = .running task := by
  by_cases hv : v = w
  · subst hv
    simp [hstate]
  · simp [hv]

/-- A worker that takes a task runs it, and the others run what they ran. -/
theorem update_take {worker : Fin n → Worker} {w v : Fin n} {task t : Nat} :
    Function.update worker w (.running task) v = .running t ↔
      v = w ∧ t = task ∨ v ≠ w ∧ worker v = .running t := by
  by_cases hv : v = w
  · subst hv
    simp [eq_comm]
  · simp [hv]

theorem Accounted.take (h : Accounted s) {w : Fin n} {task : Nat} {tasks : List Nat}
    (hworker : s.worker w = .waiting) (htasks : s.tasks = task :: tasks) :
    Accounted { s with
      tasks := tasks
      worker := Function.update s.worker w (.running task)
      dequeued := s.dequeued ++ [task] } where
  order := by
    rw [List.append_assoc, List.singleton_append, ← htasks]
    exact h.order
  nodup := h.nodup
  finished t ht := List.mem_append_left _ (h.finished t ht)
  running v t hv := by
    rcases update_take.1 hv with ⟨-, rfl⟩ | ⟨-, hv⟩
    · exact ⟨by simp, fun hmem => h.fresh htasks (h.finished t hmem)⟩
    · exact ⟨List.mem_append_left _ (h.running v t hv).1, (h.running v t hv).2⟩
  unique u v t hu hv := by
    -- no other worker runs a task that was in the queue
    have hother : ∀ x, s.worker x = .running task → False := fun x hx =>
      h.fresh htasks (h.running x task hx).1
    rcases update_take.1 hu with ⟨rfl, rfl⟩ | ⟨-, hu'⟩
    · rcases update_take.1 hv with ⟨rfl, -⟩ | ⟨-, hv'⟩
      · rfl
      · exact (hother v hv').elim
    · rcases update_take.1 hv with ⟨-, rfl⟩ | ⟨-, hv'⟩
      · exact (hother u hu').elim
      · exact h.unique u v t hu' hv'
  dequeued t ht := by
    rcases List.mem_append.1 ht with ht | ht
    · refine (h.dequeued t ht).imp_right fun ⟨v, hv⟩ => ⟨v, ?_⟩
      have hvw : v ≠ w := by
        rintro rfl
        rw [hworker] at hv
        cases hv
      exact update_take.2 (.inr ⟨hvw, hv⟩)
    · exact .inr ⟨w, update_take.2 (.inl ⟨rfl, List.mem_singleton.1 ht⟩)⟩

theorem Accounted.exit (h : Accounted s) {w : Fin n} (hworker : s.worker w = .waiting) :
    Accounted { s with worker := Function.update s.worker w .exited } where
  order := h.order
  nodup := h.nodup
  finished := h.finished
  running v t hv := h.running v t ((update_running (by simp)).1 hv).2
  unique u v t hu hv :=
    h.unique u v t ((update_running (by simp)).1 hu).2 ((update_running (by simp)).1 hv).2
  dequeued t ht := by
    refine (h.dequeued t ht).imp_right fun ⟨v, hv⟩ => ⟨v, ?_⟩
    refine (update_running (by simp)).2 ⟨?_, hv⟩
    rintro rfl
    rw [hworker] at hv
    cases hv

theorem Accounted.finish (h : Accounted s) {w : Fin n} {task : Nat}
    (hworker : s.worker w = .running task) :
    Accounted { s with
      worker := Function.update s.worker w .waiting
      finished := s.finished ++ [task] } where
  order := h.order
  nodup := List.nodup_append.2 ⟨h.nodup, List.nodup_singleton _, by
    intro t ht t' ht' heq
    rw [List.mem_singleton.1 ht'] at heq
    exact (h.running w task hworker).2 (heq ▸ ht)⟩
  finished t ht := by
    rcases List.mem_append.1 ht with ht | ht
    · exact h.finished t ht
    · rw [List.mem_singleton.1 ht]
      exact (h.running w task hworker).1
  running v t hv := by
    obtain ⟨hvw, hv⟩ := (update_running (by simp)).1 hv
    refine ⟨(h.running v t hv).1, fun ht => ?_⟩
    rcases List.mem_append.1 ht with ht | ht
    · exact (h.running v t hv).2 ht
    · rw [List.mem_singleton.1 ht] at hv
      exact hvw (h.unique v w task hv hworker)
  unique u v t hu hv :=
    h.unique u v t ((update_running (by simp)).1 hu).2 ((update_running (by simp)).1 hv).2
  dequeued t ht := by
    rcases h.dequeued t ht with ht | ⟨v, hv⟩
    · exact .inl (List.mem_append_left _ ht)
    · by_cases hvw : v = w
      · subst hvw
        rw [hworker, Worker.running.injEq] at hv
        exact .inl (by simp [hv])
      · exact .inr ⟨v, (update_running (by simp)).2 ⟨hvw, hv⟩⟩

theorem Accounted.step (h : Accounted s) (hmove : Move s action s') : Accounted s' := by
  cases hmove with
  | submit origin horigin =>
    refine ⟨?_, h.nodup, h.finished, h.running, h.unique, h.dequeued⟩
    simp only [TThreadPool.submit]
    rw [← List.append_assoc, h.order, List.length_append, List.length_singleton, List.range_succ]
  | take w hworker htasks => exact h.take hworker htasks
  | exit w hworker hstopped htasks => exact h.exit hworker
  | finish w hworker => exact h.finish hworker
  | stop hjoin => exact ⟨h.order, h.nodup, h.finished, h.running, h.unique, h.dequeued⟩
  | joined hlt hjoin hworker =>
    exact ⟨h.order, h.nodup, h.finished, h.running, h.unique, h.dequeued⟩
  | returned hge hjoin => exact ⟨h.order, h.nodup, h.finished, h.running, h.unique, h.dequeued⟩

/-- A worker that has returned stays so. -/
theorem Move.exited (hmove : Move s action s') {w : Fin n} (hw : s.worker w = .exited) :
    s'.worker w = .exited := by
  have hother : ∀ {v : Fin n} {state : Worker}, s.worker v ≠ .exited →
      Function.update s.worker v state w = .exited := by
    intro v state hv
    have hne : w ≠ v := by
      rintro rfl
      exact hv hw
    rw [Function.update_of_ne hne, hw]
  cases hmove with
  | take v hworker htasks => exact hother (by simp [hworker])
  | exit v hworker hstopped htasks => exact hother (by simp [hworker])
  | finish v hworker => exact hother (by simp [hworker])
  | _ => exact hw

/-- A worker that a step makes return has found the pool stopped and the queue empty. -/
theorem Move.exits (hmove : Move s action s') {w : Fin n} (hw : s.worker w ≠ .exited)
    (hw' : s'.worker w = .exited) : s.stopped = true ∧ s.tasks = [] ∧ s'.tasks = [] := by
  have hother : ∀ {v : Fin n} {state : Worker}, state ≠ .exited →
      Function.update s.worker v state w ≠ .exited := by
    intro v state hstate
    by_cases hwv : w = v
    · subst hwv
      rwa [Function.update_self]
    · rwa [Function.update_of_ne hwv]
  cases hmove with
  | take v hworker htasks => exact absurd hw' (hother (by simp))
  | exit v hworker hstopped htasks => exact ⟨hstopped, htasks, htasks⟩
  | finish v hworker => exact absurd hw' (hother (by simp))
  | _ => exact absurd hw' hw

/-- What a worker that has returned leaves in the queue after a step. -/
theorem Drained.leaves (h : Drained s) (haccounted : Accounted s) (hmove : Move s action s')
    {w : Fin n} (hw : s.worker w = .exited) : s'.stopped = true ∧ ∀ task ∈ s'.tasks,
      ∀ submission, s'.submitted[task]? = some submission →
        submission.beforeStop = false ∧ submission.origin ≠ some w := by
  obtain ⟨hstopped, hleft⟩ := h.exited w hw
  cases hmove with
  | submit origin horigin =>
    refine ⟨hstopped, fun task htask submission hsubmission => ?_⟩
    simp only [TThreadPool.submit] at htask hsubmission
    rcases List.mem_append.1 htask with htask | htask
    · rw [List.getElem?_append_left (haccounted.task_lt htask)] at hsubmission
      exact hleft task htask submission hsubmission
    · -- the new task: the pool is stopped, and its worker has not returned
      rw [List.mem_singleton.1 htask, List.getElem?_concat_length, Option.some.injEq] at hsubmission
      subst hsubmission
      refine ⟨by simp [hstopped], fun heq => ?_⟩
      obtain ⟨task, hrunning⟩ := horigin w heq
      rw [hw] at hrunning
      cases hrunning
  | take v hworker htasks =>
    exact ⟨hstopped, fun task htask => hleft task (htasks ▸ List.mem_cons_of_mem _ htask)⟩
  | stop hjoin => exact ⟨rfl, hleft⟩
  | _ => exact ⟨hstopped, hleft⟩

theorem Drained.step (h : Drained s) (haccounted : Accounted s) (hmove : Move s action s') :
    Drained s' where
  exited w hw' := by
    by_cases hw : s.worker w = .exited
    · exact h.leaves haccounted hmove hw
    · obtain ⟨hstopped, -, htasks'⟩ := hmove.exits hw hw'
      refine ⟨?_, by simp [htasks']⟩
      cases hmove <;> first | exact hstopped | rfl
  joined next hjoin' w hlt := by
    by_cases hw : s.worker w = .exited
    · exact hmove.exited hw
    · cases hmove with
      | stop hjoin =>
        cases hjoin'
        omega
      | @joined last hlast hjoin hworker =>
        cases hjoin'
        rcases Nat.lt_succ_iff_lt_or_eq.1 hlt with hlt | heq
        · exact h.joined last hjoin w hlt
        · subst heq
          exact hworker
      | returned hge hjoin => cases hjoin'
      | _ => exact absurd (h.joined next hjoin' w hlt) hw
  returned hjoin' w := by
    by_cases hjoin : s.join = .returned
    · exact hmove.exited (h.returned hjoin w)
    · cases hmove with
      | returned hge hjoining => exact h.joined _ hjoining w (w.isLt.trans_le hge)
      | stop _ => cases hjoin'
      | joined _ _ _ => cases hjoin'
      | _ => exact absurd hjoin' hjoin

theorem accounted_new (n : Nat) : Accounted (.new n) where
  order := rfl
  nodup := .nil
  finished := by simp [TThreadPool.new]
  running := by simp [TThreadPool.new]
  unique := by simp [TThreadPool.new]
  dequeued := by simp [TThreadPool.new]

theorem drained_new (n : Nat) : Drained (.new n) where
  exited := by simp [TThreadPool.new]
  joined := by simp [TThreadPool.new]
  returned := by simp [TThreadPool.new]

theorem run_accounted {s₀ s : TThreadPool n} {actions : List (Action n)}
    (hinit : (lts n).init s₀) (hrun : (lts n).Run s₀ actions s) : Accounted s ∧ Drained s := by
  refine hrun.preserves (I := fun s => Accounted s ∧ Drained s) ?_ ?_
  · rintro s action s' ⟨haccounted, hdrained⟩ hstep
    have hmove := step_move hstep
    exact ⟨haccounted.step hmove, hdrained.step haccounted hmove⟩
  · cases hinit
    exact ⟨accounted_new n, drained_new n⟩

end Invariant

/-- No work is lost or repeated: tasks leave the queue in the order of submission; each finishes at
most once; when `Join` has returned, every task submitted before `Stopped` was set or from a task of
the pool has finished once; and a worker returns only when no task is queued. -/
structure Drains {n : Nat} (s : TThreadPool n) : Prop where
  order : s.dequeued ++ s.tasks = List.range s.submitted.length
  once : ∀ task, s.dequeued.count task ≤ 1 ∧ s.finished.count task ≤ s.dequeued.count task
  joined : s.join = .returned → ∀ task submission, s.submitted[task]? = some submission →
    submission.beforeStop = true ∨ submission.origin ≠ none →
      s.finished.count task = 1 ∧ s.dequeued.count task = 1
  exits : ∀ w s', s.step (.dequeue w) = some s' → s'.worker w = .exited →
    s.stopped = true ∧ s.tasks = []

theorem Accounted.once {n : Nat} {s : TThreadPool n} (h : Accounted s) (task : Nat) :
    s.dequeued.count task ≤ 1 ∧ s.finished.count task ≤ s.dequeued.count task := by
  have hnodup : s.dequeued.Nodup :=
    (List.nodup_append.1 (h.order ▸ List.nodup_range : (s.dequeued ++ s.tasks).Nodup)).1
  refine ⟨List.nodup_iff_count_le_one.1 hnodup task, ?_⟩
  by_cases hmem : task ∈ s.finished
  · rw [List.count_eq_one_of_mem hnodup (h.finished task hmem)]
    exact List.nodup_iff_count_le_one.1 h.nodup task
  · rw [List.count_eq_zero_of_not_mem hmem]
    exact Nat.zero_le _

/-- Once the workers have returned, a task that is not in the queue has finished. -/
theorem Accounted.finished_of_exited {n : Nat} {s : TThreadPool n} (h : Accounted s)
    (hexited : ∀ w, s.worker w = .exited) {task : Nat} (hlt : task < s.submitted.length)
    (hnot : task ∉ s.tasks) : task ∈ s.finished ∧ task ∈ s.dequeued := by
  have hmem : task ∈ s.dequeued := by
    rw [← List.mem_range, ← h.order] at hlt
    exact (List.mem_append.1 hlt).resolve_right hnot
  refine ⟨(h.dequeued task hmem).resolve_right fun ⟨w, hw⟩ => ?_, hmem⟩
  rw [hexited w] at hw
  cases hw

/-- In every run of a pool with a thread, no work is lost or repeated. -/
theorem run_drains {n : Nat} (hpos : 1 ≤ n) {s₀ s : TThreadPool n} {actions : List (Action n)}
    (hinit : (lts n).init s₀) (hrun : (lts n).Run s₀ actions s) : Drains s := by
  obtain ⟨haccounted, hdrained⟩ := run_accounted hinit hrun
  refine ⟨haccounted.order, haccounted.once, fun hjoin task submission hsubmission hkept => ?_,
    fun w s' hstep hw' => ?_⟩
  · have hexited := hdrained.returned hjoin
    have hlt := (List.getElem?_eq_some_iff.1 hsubmission).1
    have hnot : task ∉ s.tasks := by
      intro hmem
      rcases hkept with hbefore | horigin
      · have hleft := ((hdrained.exited ⟨0, hpos⟩ (hexited _)).2 task hmem submission hsubmission).1
        rw [hbefore] at hleft
        cases hleft
      · obtain ⟨w, hw⟩ := Option.ne_none_iff_exists'.1 horigin
        exact ((hdrained.exited w (hexited w)).2 task hmem submission hsubmission).2 hw
    obtain ⟨hfinished, hdequeued⟩ := haccounted.finished_of_exited hexited hlt hnot
    obtain ⟨hle, hfinished_le⟩ := haccounted.once task
    have hone := List.one_le_count_iff.2 hfinished
    exact ⟨by omega, by omega⟩
  · have hwaiting : s.worker w ≠ .exited := by
      intro hw
      simp [TThreadPool.step, hw] at hstep
    exact ⟨((step_move hstep).exits hwaiting hw').1, ((step_move hstep).exits hwaiting hw').2.1⟩

/-- Two threads; a task submits another one after `Join` has stopped the pool. -/
def lateSubmission : List (Action 2) :=
  let first : Fin 2 := ⟨0, Nat.zero_lt_two⟩
  let second : Fin 2 := ⟨1, Nat.one_lt_two⟩
  [.submit none, .dequeue first, .join, .submit (some first), .dequeue second, .finish second,
    .dequeue second, .finish first, .dequeue first, .join, .join, .join]

theorem run_drains_late_submission :
    ∃ s, (lts 2).Run (.new 2) lateSubmission s ∧ s.join = .returned ∧ s.finished = [1, 0] ∧
      Drains s := by
  let s := (lateSubmission.foldlM TThreadPool.step (.new 2)).get (by decide)
  have hrun : (lts 2).Run (.new 2) lateSubmission s :=
    Lts.run_of_foldlM (Option.some_get _).symm
  exact ⟨s, hrun, by decide, by decide, run_drains (by decide) rfl hrun⟩

end Tpcc.ThreadPool
