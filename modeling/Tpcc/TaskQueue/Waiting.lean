import Tpcc.TaskQueue.Move

/-! The waiting queues: they are FIFOs between the refusals of `IncInflight` and the moves of
`ProcessInflightQueue`, and `Join` touches them only after every thread has left its loop. -/

namespace Tpcc.TaskQueue

open Lib

variable {η γ ι : Type} {c : Config} {client : Client η γ ι} {s s' : System η γ}

namespace TTaskQueue

/-- The waiting queue of a thread. -/
def waiting (q : TTaskQueue η) (t : Nat) : List η := (q.context t).inflightWaitingTasksInternal

/-- `Join` has not begun to destroy handles. -/
def Live (q : TTaskQueue η) : Prop := q.join = .notCalled ∨ q.join = .joining

/-- Where `Join` destroys handles, every thread has left `RunThread`. -/
def Settled (c : Config) (q : TTaskQueue η) : Prop :=
  ¬q.Live → ∀ t < c.threadCount, q.thread t = .exited

end TTaskQueue

/-- A step of a thread leaves `Join` and the other threads as they are, and is not taken at the
exit. -/
theorem LoopMove.frame {t : Nat} (hmove : LoopMove c client s t s') :
    s'.q.join = s.q.join ∧ s.q.thread t ≠ .exited ∧
      ∀ i, i ≠ t → s'.q.thread i = s.q.thread i := by
  cases hmove
  all_goals
    refine ⟨by simp, by simp_all, fun i hi => ?_⟩
    simp [hi]

theorem ThreadSafeMove.frame {t : Option Nat} {h : η} {threadHint : Nat}
    (hmove : ThreadSafeMove c client s t h threadHint s') :
    s'.q.join = s.q.join ∧ s'.q.thread = s.q.thread := by
  cases hmove <;> exact ⟨rfl, rfl⟩

theorem CallMove.frame {t : Nat} {back : Back η} {call : Call η}
    (hmove : CallMove c client s t back call s') :
    s'.q.join = s.q.join ∧ ∀ i, i ≠ t → s'.q.thread i = s.q.thread i := by
  cases hmove with
  | threadSafe h threadHint hmove =>
    obtain ⟨hjoin, hthread⟩ := hmove.frame
    exact ⟨hjoin, fun i _ => by rw [hthread]⟩
  | _ => exact ⟨by simp, fun i hi => by simp [hi]⟩

theorem TTaskQueue.Settled.of_running {q q' : TTaskQueue η} {t : Nat} (h : q.Settled c)
    (ht : t < c.threadCount) (hpoint : q.thread t ≠ .exited) (hjoin : q'.join = q.join) :
    q'.Settled c := by
  intro hdead
  rw [TTaskQueue.Live, hjoin] at hdead
  exact absurd (h hdead t ht) hpoint

theorem step_settled {a : Action η ι} (h : s.q.Settled c)
    (hstep : step c client s a = some s') : s'.q.Settled c := by
  cases step_move hstep with
  | loop t pick ht hmove =>
    obtain ⟨hjoin, hpoint, -⟩ := hmove.frame
    exact h.of_running ht hpoint hjoin
  | call t call back state ht hpoint _ hmove =>
    obtain ⟨hjoin, -⟩ := hmove.frame
    exact h.of_running ht (by simp [hpoint]) hjoin
  | callOutside b threadHint state _ hmove =>
    obtain ⟨hjoin, hthread⟩ := hmove.frame
    intro hdead t ht
    rw [hthread]
    exact h (by rwa [TTaskQueue.Live, hjoin] at hdead) t ht
  | ret t back state ht hpoint _ => exact h.of_running ht (by simp [hpoint]) rfl
  | own i state _ => exact h
  | wakeup => exact h
  | requestStop hjoin => exact fun hdead => absurd (.inr rfl) hdead
  | join hmove =>
    cases hmove with
    | joined hjoin hexited => exact fun _ => hexited
    | destroy k b ctx hjoin _ _ => exact h
    | nextContext k hjoin _ _ => exact fun _ => h (by simp [TTaskQueue.Live, hjoin])
    | returned k hjoin _ => exact fun _ => h (by simp [TTaskQueue.Live, hjoin])

theorem start_settled (state : γ) : (System.start state : System η γ).q.Settled c :=
  fun hdead => absurd (.inl rfl) hdead

/-- What a step does to the waiting queues and to the order of admissions: nothing, an admission by
`IncInflight`, a move from the front of a waiting queue, or a refusal that joins one at its end. -/
inductive WaitingMove (c : Config) (s s' : System η γ) : Prop
  | same (hwaiting : ∀ t, s'.q.waiting t = s.q.waiting t)
      (henqueued : s'.history.enqueued = s.history.enqueued)
      (hmoved : s'.history.moved = s.history.moved) (horder : s'.history.order = s.history.order)
  | direct (t : Nat) (back : Back η) (h : η) (threadHint : Nat) (prev : UInt64)
      (ht : t < c.threadCount)
      (hpoint : s.q.thread t = .running back (.incCompare h threadHint prev))
      (hprev : c.maxRunningInternal = 0 ∨ prev < c.maxRunningInternal)
      (hwaiting : ∀ t, s'.q.waiting t = s.q.waiting t)
      (henqueued : s'.history.enqueued = s.history.enqueued)
      (hmoved : s'.history.moved = s.history.moved)
      (horder : s'.history.order = s.history.order ++ [h])
  | pop (t : Nat) (h : η) (rest : List η) (ht : t < c.threadCount)
      (hfront : s.q.waiting t = h :: rest)
      (hwaiting : s'.q.waiting = Function.update s.q.waiting t rest)
      (henqueued : s'.history.enqueued = s.history.enqueued)
      (hmoved : s'.history.moved =
        Function.update s.history.moved t (s.history.moved t ++ [h]))
      (horder : s'.history.order = s.history.order ++ [h])
  | push (u : Nat) (back : Back η) (h : η) (threadHint : Nat) (hu : u < c.threadCount)
      (hpoint : s.q.thread u = .running back (.incPush h threadHint))
      (hwaiting : s'.q.waiting = Function.update s.q.waiting (c.home threadHint)
        (s.q.waiting (c.home threadHint) ++ [h]))
      (henqueued : s'.history.enqueued = Function.update s.history.enqueued (c.home threadHint)
        (s.history.enqueued (c.home threadHint) ++ [h]))
      (hmoved : s'.history.moved = s.history.moved) (horder : s'.history.order = s.history.order)

theorem TTaskQueue.waiting_setContext (q : TTaskQueue η) (t : Nat) (ctx : TPerThreadContext η) :
    (q.setContext t ctx).waiting =
      Function.update q.waiting t ctx.inflightWaitingTasksInternal := by
  funext i
  by_cases hi : i = t
  · simp [TTaskQueue.waiting, hi]
  · simp [TTaskQueue.waiting, hi]

theorem TTaskQueue.waiting_setContext_same {q : TTaskQueue η} {t : Nat}
    {ctx : TPerThreadContext η} (h : ctx.inflightWaitingTasksInternal = q.waiting t) (i : Nat) :
    (q.setContext t ctx).waiting i = q.waiting i := by
  rw [q.waiting_setContext, h, Function.update_eq_self]

@[simp] theorem TTaskQueue.waiting_setThread (q : TTaskQueue η) (t : Nat) (p : Point η) :
    (q.setThread t p).waiting = q.waiting := rfl

theorem LoopMove.waiting {t : Nat} (ht : t < c.threadCount) (hmove : LoopMove c client s t s') :
    WaitingMove c s s' := by
  cases hmove with
  | inflightPop prev h rest hpoint _ hwaiting =>
    refine .pop t h rest ht hwaiting ?_ rfl rfl rfl
    simp [TTaskQueue.waiting_setContext]
  | incAdmit back h threadHint prev hpoint hprev =>
    exact .direct t back h threadHint prev ht hpoint hprev (fun _ => rfl) rfl rfl rfl
  | incRefuse back h threadHint hpoint _ =>
    refine .push t back h threadHint ht hpoint ?_ rfl rfl rfl
    simp [TTaskQueue.waiting_setContext, TTaskQueue.waiting]
  | inflightAdd hpoint =>
    unfold inflightFetchAdd
    dsimp only
    split
    · split
      · exact .same (fun _ => rfl) rfl rfl rfl
      · exact .same (fun _ => rfl) rfl rfl rfl
    · exact .same (fun _ => rfl) rfl rfl rfl
  | drain _ _ | inflightPush _ _ _ | awaken _ _ _ _ _ | awakenFull _ _ _ _ _
  | internalResume _ _ _ _ =>
    exact .same (TTaskQueue.waiting_setContext_same rfl) rfl rfl rfl
  | _ => exact .same (fun _ => rfl) rfl rfl rfl

theorem ThreadSafeMove.waiting {t : Option Nat} {h : η} {threadHint : Nat}
    (hmove : ThreadSafeMove c client s t h threadHint s') : WaitingMove c s s' := by
  cases hmove with
  | push _ => exact .same (TTaskQueue.waiting_setContext_same rfl) rfl rfl rfl
  | full _ => exact .same (fun _ => rfl) rfl rfl rfl

theorem CallMove.waiting {t : Nat} {back : Back η} {call : Call η}
    (hmove : CallMove c client s t back call s') : WaitingMove c s s' := by
  cases hmove with
  | taskReady _ _ _ => exact .same (TTaskQueue.waiting_setContext_same rfl) rfl rfl rfl
  | asyncSleep _ _ => exact .same (TTaskQueue.waiting_setContext_same rfl) rfl rfl rfl
  | threadSafe _ _ hmove => exact hmove.waiting
  | _ => exact .same (fun _ => rfl) rfl rfl rfl

theorem WaitingMove.of_setClient {state : γ} (h : WaitingMove c (s.setClient state) s') :
    WaitingMove c s s' := by
  cases h with
  | same hwaiting henqueued hmoved horder => exact .same hwaiting henqueued hmoved horder
  | direct t back h threadHint prev ht hpoint hprev hwaiting henqueued hmoved horder =>
    exact .direct t back h threadHint prev ht hpoint hprev hwaiting henqueued hmoved horder
  | pop t h rest ht hfront hwaiting henqueued hmoved horder =>
    exact .pop t h rest ht hfront hwaiting henqueued hmoved horder
  | push u back h threadHint hu hpoint hwaiting henqueued hmoved horder =>
    exact .push u back h threadHint hu hpoint hwaiting henqueued hmoved horder

/-- Until `Join` destroys handles, every step does one of these. -/
theorem Move.waiting {a : Action η ι} (hlive : s.q.Live) (hmove : Move c client s a s') :
    WaitingMove c s s' := by
  cases hmove with
  | loop t pick ht hmove => exact hmove.waiting ht
  | call t call back state ht hpoint _ hmove =>
    exact hmove.waiting.of_setClient
  | callOutside h threadHint state _ hmove =>
    exact hmove.waiting.of_setClient
  | join hmove =>
    cases hmove with
    | destroy k h ctx hjoin _ _ => simp [TTaskQueue.Live, hjoin] at hlive
    | _ => exact .same (fun _ => rfl) rfl rfl rfl
  | _ => exact .same (fun _ => rfl) rfl rfl rfl

/-- No step makes a queue live again. -/
theorem Move.live {a : Action η ι} (hmove : Move c client s a s') (hlive : s'.q.Live) :
    s.q.Live := by
  cases hmove with
  | loop t pick _ hmove => rwa [TTaskQueue.Live, hmove.frame.1] at hlive
  | call t call back state _ _ _ hmove => rwa [TTaskQueue.Live, hmove.frame.1] at hlive
  | callOutside h threadHint state _ hmove => rwa [TTaskQueue.Live, hmove.frame.1] at hlive
  | ret _ _ _ _ _ _ => exact hlive
  | own _ _ _ => exact hlive
  | wakeup => exact hlive
  | requestStop hjoin => exact .inl hjoin
  | join hmove =>
    cases hmove with
    | joined hjoin _ => exact .inr hjoin
    | destroy _ _ _ _ _ _ => exact hlive
    | nextContext _ _ _ _ => simp [TTaskQueue.Live, System.setJoin, TTaskQueue.setJoin] at hlive
    | returned _ _ _ => simp [TTaskQueue.Live, System.setJoin, TTaskQueue.setJoin] at hlive

section Overtaking

/-- The request that a thread carries out inside `IncInflight`: its handle and thread hint, and
whether it has found a slot. -/
def Point.request (c : Config) : Point η → Option (η × Nat × Bool)
  | .running _ (.incCompare h threadHint prev) =>
    some (h, threadHint, decide (c.maxRunningInternal = 0 ∨ prev < c.maxRunningInternal))
  | .running _ (.incUndo h threadHint) => some (h, threadHint, false)
  | .running _ (.incPush h threadHint) => some (h, threadHint, false)
  | _ => none

/-- Handle `b` is in no waiting queue and inside no `IncInflight`. -/
def System.NotWaiting (c : Config) (s : System η γ) (b : η) : Prop :=
  ∀ t < c.threadCount, b ∉ s.q.waiting t ∧
    ∀ threadHint slot, (s.q.thread t).request c ≠ some (b, threadHint, slot)

/-- In the waiting queue of thread `t`, `a` is before `b`; every request of `b` is a refused one on
its way to that queue. -/
structure Ahead (c : Config) (s : System η γ) (t : Nat) (a b : η) : Prop where
  distinct : a ≠ b
  before : ∃ front rest, s.q.waiting t = front ++ a :: rest ∧ b ∉ front
  elsewhere : ∀ u < c.threadCount, u ≠ t → b ∉ s.q.waiting u
  refused : ∀ u < c.threadCount, ∀ threadHint slot,
    (s.q.thread u).request c = some (b, threadHint, slot) → c.home threadHint = t ∧ slot = false

/-- `b` has not been admitted after `order`, or `a` was before it. -/
def Kept (c : Config) (order : List η) (t : Nat) (a b : η) (s : System η γ) : Prop :=
  (∃ later, s.history.order = order ++ later ∧ b ∉ later ∧ (s.q.Live → Ahead c s t a b)) ∨
    ∃ first later, s.history.order = order ++ first ++ later ∧ a ∈ first ∧ b ∉ first

theorem Kept.conclude {order : List η} {t : Nat} {a b : η} (h : Kept c order t a b s)
    {pre post : List η} (horder : s.history.order = order ++ (pre ++ b :: post)) : a ∈ pre := by
  rcases h with ⟨later, heq, hnot, -⟩ | ⟨first, later, heq, ha, hnot⟩
  · rw [horder, List.append_cancel_left_eq] at heq
    exact absurd (by rw [← heq]; simp) hnot
  · rw [horder, List.append_assoc, List.append_cancel_left_eq] at heq
    rcases List.append_eq_append_iff.1 heq with ⟨x, hx, hrest⟩ | ⟨x, hx, -⟩
    · cases x with
      | nil =>
        simp only [List.append_nil] at hx
        exact hx ▸ ha
      | cons y ys =>
        obtain ⟨rfl, -⟩ := List.cons.inj hrest
        exact absurd (by rw [hx]; simp) hnot
    · rw [hx]
      exact List.mem_append_left x ha

/-- A step of a thread inside `IncInflight` leaves its request as it is, or ends it. -/
theorem LoopMove.request {t : Nat} (hmove : LoopMove c client s t s') {r : η × Nat × Bool}
    (hr : (s'.q.thread t).request c = some r) : (s.q.thread t).request c = some r := by
  cases hmove with
  | incReject back h threadHint prev hpoint hprev =>
    simp only [System.setThread_q, TTaskQueue.setThread_thread, if_true, Point.request] at hr
    simp [hpoint, Point.request, hprev, hr]
  | incUndo back h threadHint hpoint =>
    simp only [System.setThread_q, TTaskQueue.setThread_thread, if_true, Point.request] at hr
    simp [hpoint, Point.request, hr]
  | awaken i h hpoint _ _ => simp [hpoint, Point.request] at hr
  | _ => simp [Point.request] at hr

theorem CallMove.request {t : Nat} {back : Back η} {call : Call η}
    (hpoint : s.q.thread t = .running back .client) (hmove : CallMove c client s t back call s')
    {h : η} {threadHint : Nat} {slot : Bool}
    (hr : (s'.q.thread t).request c = some (h, threadHint, slot)) :
    call = .incInflight h threadHint := by
  cases hmove with
  | threadSafe b threadHint' hmove =>
    obtain ⟨-, hthread⟩ := hmove.frame
    simp [hthread, hpoint, Point.request] at hr
  | incTake b threadHint' _ =>
    simp [Point.request] at hr
    simp [hr]
  | incExceed b threadHint' _ =>
    simp [Point.request] at hr
    simp [hr]
  | _ => simp [hpoint, Point.request] at hr

/-- A request that a thread is inside of was there before the step, or the step is its call. -/
theorem Move.request {a : Action η ι} (hmove : Move c client s a s') {u : Nat} {h : η}
    {threadHint : Nat} {slot : Bool}
    (hr : (s'.q.thread u).request c = some (h, threadHint, slot)) :
    (s.q.thread u).request c = some (h, threadHint, slot) ∨
      a = .call (some u) (.incInflight h threadHint) := by
  cases hmove with
  | loop t pick _ hmove =>
    by_cases hu : u = t
    · subst hu
      exact .inl (hmove.request hr)
    · rw [hmove.frame.2.2 u hu] at hr
      exact .inl hr
  | call t call back state _ hpoint _ hmove =>
    by_cases hu : u = t
    · subst hu
      obtain rfl := CallMove.request (s := s.setClient state) hpoint hmove hr
      exact .inr rfl
    · rw [hmove.frame.2 u hu] at hr
      exact .inl hr
  | callOutside b threadHint' state _ hmove =>
    rw [hmove.frame.2] at hr
    exact .inl hr
  | ret t back state _ hpoint _ =>
    by_cases hu : u = t
    · subst hu
      cases back <;> simp [Back.point, Point.request] at hr
    · exact .inl (by simpa [hu] using hr)
  | join hmove => cases hmove <;> exact .inl hr
  | _ => exact .inl hr

theorem Ahead.step {t : Nat} {a b : η} (h : Ahead c s t a b) {action : Action η ι}
    (hmove : Move c client s action s') (hlive : s'.q.Live)
    (hrequest : ∀ u threadHint, action ≠ .call (some u) (.incInflight b threadHint)) :
    (s'.history.order = s.history.order ∧ Ahead c s' t a b) ∨
      ∃ x, x ≠ b ∧ s'.history.order = s.history.order ++ [x] ∧ (x = a ∨ Ahead c s' t a b) := by
  have hrefused : ∀ u < c.threadCount, ∀ threadHint slot,
      (s'.q.thread u).request c = some (b, threadHint, slot) →
        c.home threadHint = t ∧ slot = false := by
    intro u hu threadHint slot hr
    rcases hmove.request hr with hr | hr
    · exact h.refused u hu threadHint slot hr
    · exact absurd hr (hrequest u threadHint)
  obtain ⟨front, rest, hfront, hb⟩ := h.before
  cases hmove.waiting (hmove.live hlive) with
  | same hwaiting _ _ horder =>
    refine .inl ⟨horder, h.distinct, ⟨front, rest, by rw [hwaiting, hfront], hb⟩, ?_, hrefused⟩
    intro u hu hne
    rw [hwaiting]
    exact h.elsewhere u hu hne
  | direct u back x threadHint prev hu hpoint hprev hwaiting _ _ horder =>
    have hx : x ≠ b := by
      rintro rfl
      have hslot := (h.refused u hu threadHint _ (by rw [hpoint]; rfl)).2
      exact absurd hprev (by simpa using hslot)
    refine .inr ⟨x, hx, horder, .inr
      ⟨h.distinct, ⟨front, rest, by rw [hwaiting, hfront], hb⟩, ?_, hrefused⟩⟩
    intro v hv hne
    rw [hwaiting]
    exact h.elsewhere v hv hne
  | pop u x tail hu hhead hwaiting _ _ horder =>
    have helsewhere : ∀ v < c.threadCount, v ≠ t → b ∉ s'.q.waiting v := by
      intro v hv hne hmem
      rw [hwaiting] at hmem
      by_cases hvu : v = u
      · subst hvu
        simp only [Function.update_self] at hmem
        exact h.elsewhere v hv hne (by rw [hhead]; exact List.mem_cons_of_mem x hmem)
      · exact h.elsewhere v hv hne (by simpa [hvu] using hmem)
    by_cases hut : u = t
    · subst hut
      cases front with
      | nil =>
        obtain ⟨rfl, rfl⟩ := List.cons.inj (hhead.symm.trans hfront)
        exact .inr ⟨x, h.distinct, horder, .inl rfl⟩
      | cons y front =>
        obtain ⟨rfl, rfl⟩ := List.cons.inj (hhead.symm.trans hfront)
        obtain ⟨hne, hb⟩ : b ≠ x ∧ b ∉ front := by simpa using hb
        refine .inr ⟨x, fun heq => hne heq.symm, horder, .inr
          ⟨h.distinct, ⟨front, rest, ?_, hb⟩, helsewhere, hrefused⟩⟩
        rw [hwaiting, Function.update_self]
        rfl
    · have hx : x ≠ b := by
        rintro rfl
        exact h.elsewhere u hu hut (by rw [hhead]; simp)
      refine .inr ⟨x, hx, horder, .inr
        ⟨h.distinct, ⟨front, rest, ?_, hb⟩, helsewhere, hrefused⟩⟩
      rw [hwaiting, Function.update_of_ne (Ne.symm hut), hfront]
  | push u back x threadHint hu hpoint hwaiting _ _ horder =>
    have hx : x = b → c.home threadHint = t := by
      rintro rfl
      exact (h.refused u hu threadHint false (by rw [hpoint]; rfl)).1
    refine .inl ⟨horder, h.distinct, ?_, ?_, hrefused⟩
    · by_cases htarget : t = c.home threadHint
      · subst htarget
        exact ⟨front, rest ++ [x], by rw [hwaiting, Function.update_self, hfront]; simp, hb⟩
      · exact ⟨front, rest, by rw [hwaiting, Function.update_of_ne htarget, hfront], hb⟩
    · intro v hv hne hmem
      rw [hwaiting] at hmem
      by_cases hv' : v = c.home threadHint
      · subst hv'
        simp only [Function.update_self, List.mem_append, List.mem_singleton] at hmem
        rcases hmem with hmem | hmem
        · exact h.elsewhere _ hv hne hmem
        · exact hne (hx hmem.symm)
      · exact h.elsewhere v hv hne (by simpa [hv'] using hmem)

/-- After every thread has left its loop, no step asks for a slot, takes one or throws. -/
theorem Move.history_of_dead {a : Action η ι} (hsettled : s.q.Settled c) (hdead : ¬s.q.Live)
    (hmove : Move c client s a s') :
    s'.history.order = s.history.order ∧ s'.history.requested = s.history.requested ∧
      s'.history.admitted = s.history.admitted ∧ s'.history.threw = s.history.threw := by
  have hexited := hsettled hdead
  cases hmove with
  | loop t pick ht hmove => exact absurd (hexited t ht) hmove.frame.2.1
  | call t call back state ht hpoint _ _ =>
    rw [hexited t ht] at hpoint
    cases hpoint
  | callOutside h threadHint state _ hmove => cases hmove <;> exact ⟨rfl, rfl, rfl, rfl⟩
  | join hmove => cases hmove <;> exact ⟨rfl, rfl, rfl, rfl⟩
  | _ => exact ⟨rfl, rfl, rfl, rfl⟩

/-- An admission keeps the order of `Move.waiting`, whatever the step. -/
theorem Move.order_append {a : Action η ι} (hsettled : s.q.Settled c)
    (hmove : Move c client s a s') : ∃ later, s'.history.order = s.history.order ++ later := by
  by_cases hlive : s.q.Live
  · cases hmove.waiting hlive with
    | same _ _ _ horder => exact ⟨[], by simp [horder]⟩
    | direct _ _ b _ _ _ _ _ _ _ _ horder => exact ⟨[b], horder⟩
    | pop _ b _ _ _ _ _ _ horder => exact ⟨[b], horder⟩
    | push _ _ _ _ _ _ _ _ _ horder => exact ⟨[], by simp [horder]⟩
  · exact ⟨[], by simp [(hmove.history_of_dead hsettled hlive).1]⟩

theorem Kept.step {order : List η} {t : Nat} {a b : η} (h : Kept c order t a b s)
    (hsettled : s.q.Settled c) {action : Action η ι} (hmove : Move c client s action s')
    (hrequest : ∀ u threadHint, action ≠ .call (some u) (.incInflight b threadHint)) :
    Kept c order t a b s' := by
  rcases h with ⟨later, horder, hb, hahead⟩ | ⟨first, later, horder, ha, hb⟩
  · by_cases hlive' : s'.q.Live
    · obtain ⟨hsame, hnext⟩ | ⟨x, hx, hnew, hnext⟩ :=
        (hahead (hmove.live hlive')).step hmove hlive' hrequest
      · exact .inl ⟨later, by rw [hsame, horder], hb, fun _ => hnext⟩
      · have hb' : b ∉ later ++ [x] := by simp [hb, hx.symm]
        have horder' : s'.history.order = order ++ (later ++ [x]) := by
          rw [hnew, horder, List.append_assoc]
        rcases hnext with rfl | hnext
        · exact .inr ⟨later ++ [x], [], by simpa using horder', by simp, hb'⟩
        · exact .inl ⟨later ++ [x], horder', hb', fun _ => hnext⟩
    · by_cases hlive : s.q.Live
      · cases hmove with
        | join hmove =>
          cases hmove with
          | destroy _ _ _ _ _ _ => exact absurd hlive hlive'
          | _ => exact .inl ⟨later, horder, hb, fun hl => absurd hl hlive'⟩
        | loop t pick _ hmove =>
          rw [TTaskQueue.Live, hmove.frame.1] at hlive'
          exact absurd hlive hlive'
        | call t call back state _ _ _ hmove =>
          rw [TTaskQueue.Live, hmove.frame.1] at hlive'
          exact absurd hlive hlive'
        | callOutside h threadHint state _ hmove =>
          rw [TTaskQueue.Live, hmove.frame.1] at hlive'
          exact absurd hlive hlive'
        | requestStop _ => exact absurd (.inr rfl) hlive'
        | _ => exact absurd hlive hlive'
      · exact .inl ⟨later, by rw [(hmove.history_of_dead hsettled hlive).1, horder], hb,
          fun hl => absurd hl hlive'⟩
  · obtain ⟨new, hnew⟩ := hmove.order_append hsettled
    exact .inr ⟨first, later ++ new, by rw [hnew, horder, List.append_assoc], ha, hb⟩

theorem Kept.run {init : γ → Prop} {order : List η} {t : Nat} {a b : η}
    (h : Kept c order t a b s) (hsettled : s.q.Settled c) {actions : List (Action η ι)}
    (hrun : (lts c client init).Run s actions s')
    (honce : ∀ u threadHint, .call (some u) (.incInflight b threadHint) ∉ actions) :
    Kept c order t a b s' ∧ s'.q.Settled c := by
  induction hrun with
  | nil => exact ⟨h, hsettled⟩
  | snoc _ hlast ih =>
    obtain ⟨hkept, hsettled⟩ := ih fun u threadHint hmem =>
      honce u threadHint (List.mem_append_left _ hmem)
    refine ⟨hkept.step hsettled (step_move hlast) ?_, step_settled hsettled hlast⟩
    rintro u threadHint rfl
    exact honce u threadHint (by simp)

theorem run_settled {init : γ → Prop} {s₀ : System η γ} {actions : List (Action η ι)}
    (hinit : (lts c client init).init s₀) (hrun : (lts c client init).Run s₀ actions s) :
    s.q.Settled c := by
  refine hrun.preserves (I := fun s => s.q.Settled c)
    (fun _ _ _ h hstep => step_settled h hstep) ?_
  obtain ⟨state, -, rfl⟩ := hinit
  exact start_settled state

/-- Where `b` asks for a slot while `a` waits in the queue of its thread, and the request finds none,
`b` is not admitted before `a`. -/
theorem refused_not_admitted_before {init : γ → Prop} {s₀ s₁ s₂ : System η γ}
    {past future : List (Action η ι)} (hinit : (lts c client init).init s₀)
    (hpast : (lts c client init).Run s₀ past s) {u threadHint : Nat} {a b : η}
    (hcall : (lts c client init).step s (.call (some u) (.incInflight b threadHint)) s₁)
    (hfuture : (lts c client init).Run s₁ future s₂) (hpos : 0 < c.maxRunningInternal)
    (ha : a ∈ s.q.waiting (c.home threadHint)) (hb : s.NotWaiting c b)
    (hfull : c.maxRunningInternal ≤ s.q.runningInternalCount)
    (honce : ∀ v hint, .call (some v) (.incInflight b hint) ∉ future) (pre post : List η)
    (horder : s₂.history.order = s₁.history.order ++ (pre ++ b :: post)) : a ∈ pre := by
  have hmove := step_move hcall
  have hsettled := run_settled hinit hpast
  refine Kept.conclude (t := c.home threadHint)
    (Kept.run ?_ (step_settled hsettled hcall) hfuture honce).1 horder
  refine .inl ⟨[], by simp, by simp, fun hlive => ?_⟩
  have hnone : ¬(c.maxRunningInternal = 0 ∨ s.q.runningInternalCount < c.maxRunningInternal) := by
    rintro (hzero | hlt)
    · rw [hzero] at hpos
      exact absurd hpos (by decide)
    · exact absurd hlt (UInt64.not_lt.2 hfull)
  obtain ⟨front, rest, hsplit⟩ := List.append_of_mem ha
  have hhome := hb _ (c.home_lt threadHint)
  have hnotin : b ∉ front := fun hmem => hhome.1 (by rw [hsplit]; exact List.mem_append_left _ hmem)
  have hne : a ≠ b := by
    rintro rfl
    exact hhome.1 ha
  cases hmove with
  | call _ _ back state hu hpoint _ hmove' =>
    cases hmove' with
    | incTake _ _ hprev => exact absurd hprev hnone
    | incExceed _ _ _ =>
      refine ⟨hne, ⟨front, rest, hsplit, hnotin⟩, fun v hv _ => (hb v hv).1, ?_⟩
      intro v hv hint slot hr
      by_cases hvu : v = u
      · subst hvu
        simp only [System.recordRequested_q, System.setThread_q, System.setCount_q,
          System.setClient_q, TTaskQueue.setThread_thread, if_true, Point.request, hnone,
          decide_false, Option.some.injEq, Prod.mk.injEq, true_and] at hr
        exact ⟨by rw [hr.1], hr.2.symm⟩
      · exact absurd (by simpa [hvu] using hr) ((hb v hv).2 hint slot)

end Overtaking

/-- One thread and one slot. -/
def oneSlot : Config where
  threadCount := 1
  maxRunningInternal := 1
  maxReadyInternal := 2
  maxReadyExternal := 2
  threadCount_pos := by decide
  threadCount_le := by decide

/-- Handle 2 has the only slot and waits for its database; handle 0 is refused, and handle 1
runs. -/
def refusedFirst : List (Action Nat Empty) :=
  ([.call none (.taskReadyThreadSafe 2 0), .loop 0 none, .loop 0 none,
    .call (some 0) (.incInflight 2 0), .loop 0 none, .ret 0, .call none (.taskReadyThreadSafe 0 0),
    .call none (.taskReadyThreadSafe 1 0)] : List (Action Nat Empty)) ++
  List.replicate 6 (Action.loop 0 none) ++
  ([.call (some 0) (.incInflight 0 0), .loop 0 none, .loop 0 none, .loop 0 none, .ret 0,
    .loop 0 none] : List (Action Nat Empty))

/-- Handle 2 gives its slot back, handle 0 takes it and gives it back, and handle 1 takes it. -/
def admittedInTurn : List (Action Nat Empty) :=
  ([.loop 0 none, .loop 0 none, .loop 0 none, .ret 0,
    .call none (.taskReadyThreadSafe 2 0)] : List (Action Nat Empty)) ++
  List.replicate 6 (Action.loop 0 none) ++ [Action.call (some 0) (.decInflight 2), Action.ret 0] ++
  List.replicate 8 (Action.loop 0 none) ++ [Action.call (some 0) (.decInflight 0), Action.ret 0] ++
  List.replicate 5 (Action.loop 0 none)

theorem refused_not_admitted_before_in_turn :
    ∃ s s₁ s₂ : System Nat Unit,
      (lts oneSlot (Client.any Nat) fun _ => True).Run (.start ()) refusedFirst s ∧
      (lts oneSlot (Client.any Nat) fun _ => True).step s
        (.call (some 0) (.incInflight 1 0)) s₁ ∧
      (lts oneSlot (Client.any Nat) fun _ => True).Run s₁ admittedInTurn s₂ ∧
      s₂.history.order = s₁.history.order ++ ([0] ++ 1 :: []) ∧ 0 ∈ [0] := by
  let next := step oneSlot (Client.any Nat)
  let s := (refusedFirst.foldlM next (.start ())).get (by decide +kernel)
  let s₁ := (next s (.call (some 0) (.incInflight 1 0))).get (by decide +kernel)
  let s₂ := (admittedInTurn.foldlM next s₁).get (by decide +kernel)
  have hpast : (lts oneSlot (Client.any Nat) fun _ => True).Run (.start ()) refusedFirst s :=
    Lts.run_of_foldlM (Option.some_get _).symm
  have hcall : (lts oneSlot (Client.any Nat) fun _ => True).step s
      (.call (some 0) (.incInflight 1 0)) s₁ := (Option.some_get _).symm
  have hfuture : (lts oneSlot (Client.any Nat) fun _ => True).Run s₁ admittedInTurn s₂ :=
    Lts.run_of_foldlM (Option.some_get _).symm
  have horder : s₂.history.order = s₁.history.order ++ ([0] ++ 1 :: []) := by decide +kernel
  have hpoint : (s.q.thread 0).request oneSlot = none := by decide +kernel
  have hb : s.NotWaiting oneSlot 1 := by
    intro t ht
    obtain rfl : t = 0 := Nat.lt_one_iff.1 ht
    exact ⟨by decide +kernel, fun _ _ => by rw [hpoint]; exact nofun⟩
  exact ⟨s, s₁, s₂, hpast, hcall, hfuture, horder,
    refused_not_admitted_before ⟨(), trivial, rfl⟩ hpast hcall hfuture (by decide)
      (by decide +kernel) hb (by decide +kernel) (by simp [admittedInTurn]) [0] [] horder⟩

/-- Handle 1 has the only slot and waits for its database; handle 0 is refused; then handle 1 runs
again and gives its slot back. -/
def releaseWhileWaiting : List (Action Nat Empty) :=
  [.call none (.taskReadyThreadSafe 1 0), .call none (.taskReadyThreadSafe 0 0), .loop 0 none,
    .loop 0 none, .call (some 0) (.incInflight 1 0), .loop 0 none, .ret 0,
    .loop 0 none, .call (some 0) (.incInflight 0 0), .loop 0 none, .loop 0 none, .loop 0 none,
    .ret 0, .call none (.taskReadyThreadSafe 1 0), .loop 0 none, .loop 0 none, .loop 0 none,
    .loop 0 none, .loop 0 none, .loop 0 none, .call (some 0) (.decInflight 1)]

/-- Handle 0 waits when handle 1 of its thread asks for a slot again, and handle 1 is admitted at
once. -/
theorem direct_admission_overtakes :
    ∃ s s₁ s₂ : System Nat Unit,
      (lts oneSlot (Client.any Nat) fun _ => True).Run (.start ()) releaseWhileWaiting s ∧
      (lts oneSlot (Client.any Nat) fun _ => True).step s
        (.call (some 0) (.incInflight 1 0)) s₁ ∧
      (lts oneSlot (Client.any Nat) fun _ => True).Run s₁ [.loop 0 none] s₂ ∧
      0 ∈ s.q.waiting (oneSlot.home 0) ∧ s₂.history.order = s₁.history.order ++ ([] ++ 1 :: []) ∧
      0 ∈ s₂.q.waiting (oneSlot.home 0) := by
  let next := step oneSlot (Client.any Nat)
  let s := (releaseWhileWaiting.foldlM next (.start ())).get rfl
  let s₁ := (next s (.call (some 0) (.incInflight 1 0))).get rfl
  let s₂ := (next s₁ (.loop 0 none)).get rfl
  exact ⟨s, s₁, s₂, Lts.run_of_foldlM rfl, rfl, Lts.run_of_foldlM rfl, by decide, by decide,
    by decide⟩

end Tpcc.TaskQueue
