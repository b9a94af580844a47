import Mathlib.Data.List.Perm.Basic
import Tpcc.Future.Model

/-! Every callback of a shared state runs exactly once after the state is set, the first setter wins,
and a coroutine that suspends on a future is enqueued to its thread exactly once. -/

namespace Tpcc.Future

open Lib

variable {T E κ η : Type}

section Observations

/-- The result that a setter stored. -/
def Event.set? : Event T E κ η → Option (Except E T)
  | .set result => some result
  | _ => none

/-- The callback that was registered. -/
def Event.registered? : Event T E κ η → Option (Callback κ η)
  | .registered cb => some cb
  | _ => none

/-- The callback that ran. -/
def Event.ran? : Event T E κ η → Option (Callback κ η)
  | .ran cb => some cb
  | _ => none

/-- The handle of a coroutine that suspended, with the index of its thread. -/
def Event.suspended? (threadCount : Nat) : Event T E κ η → Option (Nat × η)
  | .suspended handle threadHint => some (threadHint % threadCount, handle)
  | _ => none

/-- The handle that a callback enqueues. -/
def Callback.task? (threadCount : Nat) : Callback κ η → Option (Nat × η)
  | .taskReady handle threadHint => some (threadHint % threadCount, handle)
  | .other _ => none

/-- The callbacks that a call has still to run. -/
def Call.pending : Call κ η → List (Callback κ η)
  | .calling toCall => toCall
  | .inline cb => [cb]
  | .suspending _ _ => []

/-- The handle of a coroutine that has not called `Subscribe` yet. -/
def Call.task? (threadCount : Nat) : Call κ η → Option (Nat × η)
  | .suspending handle threadHint => some (threadHint % threadCount, handle)
  | _ => none

/-- The number of steps that a call can take. -/
def Call.steps : Call κ η → Nat
  | .calling toCall => toCall.length + 1
  | .inline _ => 1
  | .suspending _ _ => 2

end Observations

/-- The callbacks that are registered and have not run. -/
def System.pending (s : System T E κ η) : List (Callback κ η) :=
  s.state.callbacks ++ s.calls.flatMap Call.pending

/-- What the events of a run say about the state it ends in. -/
structure Books (threadCount : Nat) (events : List (Event T E κ η)) (s : System T E κ η) :
    Prop where
  blank : s.state.isSet = false → s.state.value = none ∧ s.state.exception = none
  result : events.filterMap Event.set? = s.state.result.toList
  stored : s.state.isSet = true → s.state.callbacks = [] ∧ s.state.result.isSome = true
  early : s.state.isSet = false →
    events.filterMap Event.ran? = [] ∧ s.calls.flatMap Call.pending = []
  once : (events.filterMap Event.ran? ++ s.pending).Perm (events.filterMap Event.registered?)
  enqueued : s.readyTasks =
    (events.filterMap Event.ran?).filterMap (Callback.task? threadCount)
  suspended : ((events.filterMap Event.registered?).filterMap (Callback.task? threadCount) ++
      s.calls.filterMap (Call.task? threadCount)).Perm
    (events.filterMap (Event.suspended? threadCount))

namespace Books

variable {threadCount : Nat} {events : List (Event T E κ η)} {s : System T E κ η}

theorem new : Books threadCount [] (.new : System T E κ η) where
  blank _ := ⟨rfl, rfl⟩
  result := rfl
  stored := nofun
  early _ := ⟨rfl, rfl⟩
  once := .refl _
  enqueued := rfl
  suspended := .refl _

/-- The order of the calls does not matter. -/
theorem reorder {calls : List (Call κ η)} (h : Books threadCount events s)
    (hperm : calls.Perm s.calls) : Books threadCount events { s with calls := calls } where
  blank := h.blank
  result := h.result
  stored := h.stored
  early hset := by
    have hnone := (h.early hset).2
    refine ⟨(h.early hset).1, List.eq_nil_of_subset_nil ?_⟩
    rw [← hnone]
    exact (hperm.flatMap_right _).subset
  once := ((hperm.flatMap_right _).append_left _).append_left _ |>.trans h.once
  enqueued := h.enqueued
  suspended := ((hperm.filterMap _).append_left _).trans h.suspended

/-- A step that changes nothing and is neither a set, a registration, a run nor a suspension. -/
theorem unobserved {event : Event T E κ η} (h : Books threadCount events s)
    (hset : event.set? = none) (hregistered : event.registered? = none)
    (hran : event.ran? = none) (hsuspended : event.suspended? threadCount = none) :
    Books threadCount (events ++ [event]) s where
  blank := h.blank
  result := by simpa [List.filterMap_cons, hset] using h.result
  stored := h.stored
  early := by simpa [List.filterMap_cons, hran] using h.early
  once := by simpa [List.filterMap_cons, hran, hregistered] using h.once
  enqueued := by simpa [List.filterMap_cons, hran] using h.enqueued
  suspended := by simpa [List.filterMap_cons, hregistered, hsuspended] using h.suspended

/-- A coroutine suspends. -/
theorem suspend (h : Books threadCount events s) (handle : η) (threadHint : Nat) :
    Books threadCount (events ++ [.suspended handle threadHint])
      { s with calls := .suspending handle threadHint :: s.calls } where
  blank := h.blank
  result := by simpa [List.filterMap_cons, Event.set?] using h.result
  stored := h.stored
  early := by simpa [List.filterMap_cons, Event.ran?, Call.pending] using h.early
  once := by
    simpa [System.pending, List.filterMap_cons, Event.ran?, Event.registered?, Call.pending]
      using h.once
  enqueued := by simpa [List.filterMap_cons, Event.ran?] using h.enqueued
  suspended := by
    have hsuspended := h.suspended.append_right [(threadHint % threadCount, handle)]
    simp only [List.filterMap_append, List.append_assoc] at hsuspended ⊢
    refine List.Perm.trans ?_ hsuspended
    have hcomm : ([(threadHint % threadCount, handle)] ++
        s.calls.filterMap (Call.task? threadCount)).Perm _ := List.perm_append_comm
    exact hcomm.append_left _

/-- A setter on a state that is not set. -/
theorem set {result : Except E T} {toCall : List (Callback κ η)}
    {state : TSharedState T E (Callback κ η)} (h : Books threadCount events s)
    (hset : s.state.set result = .ok (toCall, state)) :
    Books threadCount (events ++ [.set result])
        { s with state := state, calls := .calling toCall :: s.calls } ∧
      state.result = some result ∧ s.state.isSet = false := by
  have hunset : s.state.isSet = false := by
    by_contra hisSet
    have hisSet : s.state.isSet = true := by simpa using hisSet
    cases result <;>
      simp [TSharedState.set, TSharedState.setValue, TSharedState.setException, hisSet] at hset
  obtain ⟨hvalue, hexception⟩ := h.blank hunset
  have hfields : toCall = s.state.callbacks ∧ state.callbacks = [] ∧ state.isSet = true ∧
      state.result = some result := by
    cases result with
    | ok value =>
      simp only [TSharedState.set, TSharedState.setValue, hunset, Bool.false_eq_true, if_false,
        Except.ok.injEq, Prod.mk.injEq] at hset
      obtain ⟨rfl, rfl⟩ := hset
      exact ⟨rfl, rfl, rfl, by simp [TSharedState.result, hexception]⟩
    | error ex =>
      simp only [TSharedState.set, TSharedState.setException, hunset, Bool.false_eq_true, if_false,
        Except.ok.injEq, Prod.mk.injEq] at hset
      obtain ⟨rfl, rfl⟩ := hset
      exact ⟨rfl, rfl, rfl, by simp [TSharedState.result]⟩
  obtain ⟨rfl, hcallbacks, hisSet, hresult⟩ := hfields
  have hbefore : events.filterMap Event.set? = [] := by
    rw [h.result]
    simp [TSharedState.result, hunset]
  refine ⟨⟨?_, ?_, ?_, ?_, ?_, ?_, ?_⟩, hresult, hunset⟩
  · simp [hisSet]
  · simp [hbefore, Event.set?, hresult]
  · simp [hcallbacks, hresult]
  · simp [hisSet]
  · simpa [System.pending, List.filterMap_cons, Event.ran?, Event.registered?, hcallbacks,
      Call.pending] using h.once
  · simpa [List.filterMap_cons, Event.ran?] using h.enqueued
  · simpa [List.filterMap_cons, Event.registered?, Event.suspended?, Call.task?] using h.suspended

/-- `AddCallback`, where `calls` are the calls after it and `tasks` the suspended coroutines that it
adds to the registered ones. -/
theorem register {calls : List (Call κ η)} {cb : Callback κ η} (h : Books threadCount events s)
    (hpending : calls.flatMap Call.pending = s.calls.flatMap Call.pending)
    (htasks : ((cb.task? threadCount).toList ++ calls.filterMap (Call.task? threadCount)) =
      s.calls.filterMap (Call.task? threadCount)) :
    Books threadCount (events ++ [.registered cb]) (s.register calls cb) := by
  have hsuspended : (((events ++ [Event.registered cb]).filterMap Event.registered?).filterMap
        (Callback.task? threadCount) ++ calls.filterMap (Call.task? threadCount)).Perm
      ((events ++ [Event.registered cb]).filterMap (Event.suspended? threadCount)) := by
    have heq : [cb].filterMap (Callback.task? threadCount) = (cb.task? threadCount).toList := by
      cases cb <;> rfl
    simp only [List.filterMap_append, List.append_assoc]
    rw [show [Event.registered cb].filterMap (Event.registered? (T := T) (E := E)) = [cb] from rfl,
      heq, htasks]
    simpa [List.filterMap_cons, Event.suspended?] using h.suspended
  cases hisSet : s.state.isSet with
  | true =>
    obtain ⟨hcallbacks, -⟩ := h.stored hisSet
    have hregister : s.register calls cb = { s with calls := .inline cb :: calls } := by
      simp [System.register, TSharedState.addCallback, hisSet]
    rw [hregister]
    refine ⟨h.blank, ?_, h.stored, ?_, ?_, ?_, ?_⟩
    · simpa [List.filterMap_cons, Event.set?] using h.result
    · simp [hisSet]
    · have honce := h.once.append_right [cb]
      simp only [System.pending, hcallbacks, List.nil_append] at honce ⊢
      simp only [List.filterMap_append, List.flatMap_cons, Call.pending, hpending]
      refine List.Perm.trans ?_ honce
      have hnil : [Event.registered cb].filterMap (Event.ran? (T := T) (E := E)) = [] := rfl
      rw [hnil, List.append_nil, List.append_assoc]
      exact List.perm_append_comm.append_left _
    · simpa [List.filterMap_cons, Event.ran?] using h.enqueued
    · simpa [List.filterMap_cons, Call.task?] using hsuspended
  | false =>
    obtain ⟨hran, hnone⟩ := h.early hisSet
    have hregister : s.register calls cb =
        { s with
          state := { s.state with callbacks := s.state.callbacks ++ [cb] }
          calls := calls } := by
      simp [System.register, TSharedState.addCallback, hisSet]
    rw [hregister]
    refine ⟨h.blank, ?_, ?_, ?_, ?_, ?_, hsuspended⟩
    · simpa [List.filterMap_cons, Event.set?, TSharedState.result] using h.result
    · simp [hisSet]
    · exact fun _ => ⟨by simpa [List.filterMap_cons, Event.ran?] using hran, hpending.trans hnone⟩
    · have honce := h.once.append_right [cb]
      simp only [System.pending, hnone, hran, List.append_nil, List.nil_append] at honce ⊢
      simpa [hpending, hnone, hran, List.filterMap_cons, Event.ran?, Event.registered?] using honce
    · simpa [List.filterMap_cons, Event.ran?] using h.enqueued

/-- A callback runs, which was the first one of the call `call`; `rest` are the calls after it. -/
theorem ran {rest : List (Call κ η)} {cb : Callback κ η} (h : Books threadCount events s)
    (hpending : s.calls.flatMap Call.pending = cb :: rest.flatMap Call.pending)
    (htasks : s.calls.filterMap (Call.task? threadCount) =
      rest.filterMap (Call.task? threadCount)) :
    Books threadCount (events ++ [.ran cb])
      ({ s with calls := rest }.runCallback threadCount cb) := by
  have hisSet : s.state.isSet = true := by
    by_contra hisSet
    have hnone := (h.early (by simpa using hisSet)).2
    rw [hpending] at hnone
    cases hnone
  obtain ⟨hcallbacks, hresult⟩ := h.stored hisSet
  have hrun : { s with calls := rest }.runCallback threadCount cb =
      { s with
        calls := rest
        readyTasks := s.readyTasks ++ (cb.task? threadCount).toList } := by
    cases cb <;> simp [System.runCallback, Callback.task?]
  rw [hrun]
  refine ⟨h.blank, ?_, h.stored, ?_, ?_, ?_, ?_⟩
  · simpa [List.filterMap_cons, Event.set?] using h.result
  · simp [hisSet]
  · have honce := h.once
    simp only [System.pending, hcallbacks, List.nil_append, hpending] at honce ⊢
    simpa [List.filterMap_cons, Event.ran?, Event.registered?] using honce
  · rw [h.enqueued, List.filterMap_append, List.filterMap_append]
    cases cb <;> rfl
  · have hsuspended := h.suspended
    rw [htasks] at hsuspended
    simpa [List.filterMap_cons, Event.registered?, Event.suspended?] using hsuspended

/-- A call takes its next step. -/
theorem proceed {call : Call κ η} {calls : List (Call κ η)} (h : Books threadCount events s)
    (hcalls : s.calls = call :: calls) :
    Books threadCount (events ++ [(s.proceed threadCount calls call).1])
      (s.proceed threadCount calls call).2 := by
  cases call with
  | calling toCall =>
    cases toCall with
    | nil =>
      refine ⟨h.blank, ?_, h.stored, ?_, ?_, ?_, ?_⟩
      · simpa [List.filterMap_cons, System.proceed, Event.set?] using h.result
      · have hearly := h.early
        rw [hcalls] at hearly
        simpa [List.filterMap_cons, System.proceed, Event.ran?, Call.pending] using hearly
      · have honce := h.once
        rw [System.pending, hcalls] at honce
        simpa [System.pending, List.filterMap_cons, System.proceed, Event.ran?, Event.registered?,
          Call.pending] using honce
      · simpa [List.filterMap_cons, System.proceed, Event.ran?] using h.enqueued
      · have hsuspended := h.suspended
        rw [hcalls] at hsuspended
        simpa [List.filterMap_cons, System.proceed, Event.registered?, Event.suspended?,
          Call.task?] using hsuspended
    | cons cb toCall =>
      refine h.ran ?_ ?_
      · simp [hcalls, Call.pending]
      · simp [hcalls, List.filterMap_cons, Call.task?]
  | inline cb =>
    refine h.ran ?_ ?_
    · simp [hcalls, Call.pending]
    · simp [hcalls, List.filterMap_cons, Call.task?]
  | suspending handle threadHint =>
    refine h.register ?_ ?_
    · simp [hcalls, Call.pending]
    · simp [hcalls, Call.task?, Callback.task?]

theorem step {action : Action T E κ η} {event : Event T E κ η} {s' : System T E κ η}
    (h : Books threadCount events s) (hstep : s.step threadCount action = some (event, s')) :
    Books threadCount (events ++ [event]) s' := by
  cases action with
  | set result =>
    simp only [System.step] at hstep
    split at hstep
    · obtain ⟨rfl, rfl⟩ := Prod.mk.inj (Option.some.inj hstep)
      exact h.unobserved rfl rfl rfl rfl
    · next hset =>
      obtain ⟨rfl, rfl⟩ := Prod.mk.inj (Option.some.inj hstep)
      exact (h.set hset).1
  | subscribe k =>
    obtain ⟨rfl, rfl⟩ := Prod.mk.inj (Option.some.inj hstep)
    exact h.register rfl rfl
  | isReady =>
    obtain ⟨rfl, rfl⟩ := Prod.mk.inj (Option.some.inj hstep)
    exact h.unobserved rfl rfl rfl rfl
  | awaitReady handle threadHint =>
    simp only [System.step] at hstep
    split at hstep
    · obtain ⟨rfl, rfl⟩ := Prod.mk.inj (Option.some.inj hstep)
      exact h.unobserved rfl rfl rfl rfl
    · obtain ⟨rfl, rfl⟩ := Prod.mk.inj (Option.some.inj hstep)
      exact h.suspend handle threadHint
  | proceed i =>
    simp only [System.step] at hstep
    split at hstep
    · cases hstep
    · next call hcall =>
      obtain ⟨hlt, rfl⟩ := List.getElem?_eq_some_iff.mp hcall
      have hperm := List.getElem_cons_eraseIdx_perm hlt
      obtain ⟨rfl, rfl⟩ := Prod.mk.inj (Option.some.inj hstep)
      exact (h.reorder hperm).proceed rfl

end Books

section Run

variable {threadCount : Nat} {events : List (Event T E κ η)} {s : System T E κ η}

theorem run_books (hrun : (System.lts threadCount).Run .new events s) :
    Books threadCount events s := by
  generalize hstart : (System.new : System T E κ η) = start at hrun
  induction hrun with
  | nil =>
    subst hstart
    exact .new
  | snoc _ hlast ih =>
    obtain ⟨action, hstep⟩ := hlast
    exact ih.step hstep

/-- Once the state is set, the calls that are not over can all be finished. -/
theorem exists_run_to_quiescence (hisSet : s.state.isSet = true) :
    ∃ events' s', (System.lts threadCount).Run s events' s' ∧ s'.calls = [] := by
  induction hwork : (s.calls.map Call.steps).sum using Nat.strongRecOn generalizing s with
  | ind work ih =>
    cases hcalls : s.calls with
    | nil => exact ⟨[], s, .nil s, hcalls⟩
    | cons call calls =>
      have hfirst : s.step threadCount (.proceed 0) =
          some (s.proceed threadCount calls call) := by
        simp [System.step, hcalls]
      have hless : (((s.proceed threadCount calls call).2.calls.map Call.steps).sum < work ∧
          (s.proceed threadCount calls call).2.state.isSet = true) := by
        rw [hcalls, List.map_cons, List.sum_cons] at hwork
        cases call with
        | calling toCall =>
          cases toCall with
          | nil =>
            simp only [Call.steps] at hwork
            exact ⟨by simp only [System.proceed]; omega, hisSet⟩
          | cons cb toCall =>
            simp only [Call.steps, List.length_cons] at hwork
            cases cb <;>
              exact ⟨by simp [System.proceed, System.runCallback, Call.steps]; omega, hisSet⟩
        | inline cb =>
          simp only [Call.steps] at hwork
          cases cb <;> exact ⟨by simp only [System.proceed, System.runCallback]; omega, hisSet⟩
        | suspending handle threadHint =>
          simp only [Call.steps] at hwork
          simp only [System.proceed, System.register, TSharedState.addCallback, hisSet, if_true,
            List.map_cons, List.sum_cons, Call.steps, and_true]
          omega
      obtain ⟨events', s', hrest, hdone⟩ := ih _ hless.1 hless.2 rfl
      exact ⟨_ :: events', s', .cons ⟨.proceed 0, hfirst⟩ hrest, hdone⟩

/-- Who set the state, which callbacks ran and which coroutines were enqueued, by the events of a run
and the state it ends in. -/
structure ExactlyOnce (threadCount : Nat) (events : List (Event T E κ η)) (s : System T E κ η) :
    Prop where
  /-- At most one setter has succeeded, and what it set is stored. -/
  firstWins : events.filterMap Event.set? = s.state.result.toList
  /-- While the state is not set, a setter succeeds and its result is stored. -/
  sets : s.state.isSet = false → ∀ result, ∃ s',
    s.step threadCount (.set result) = some (.set result, s') ∧ s'.state.result = some result
  /-- Every later setter throws and changes nothing. -/
  refuses : s.state.isSet = true → ∀ result, ∃ what,
    s.step threadCount (.set result) = some (.refused what, s)
  notBefore : s.state.isSet = false → events.filterMap Event.ran? = []
  atMostOnce : (events.filterMap Event.ran?).Subperm (events.filterMap Event.registered?)
  /-- Of a state that is set, the callbacks that have not run are those of the calls that are not
  over, which can all be finished. -/
  waiting : s.state.isSet = true →
    (events.filterMap Event.ran? ++ s.calls.flatMap Call.pending).Perm
      (events.filterMap Event.registered?)
  finishes : s.state.isSet = true →
    ∃ events' s', (System.lts threadCount).Run s events' s' ∧ s'.calls = []
  exactlyOnce : s.state.isSet = true → s.calls = [] →
    (events.filterMap Event.ran?).Perm (events.filterMap Event.registered?)
  enqueuedAtMostOnce : s.readyTasks.Subperm (events.filterMap (Event.suspended? threadCount))
  enqueuedOnce : s.state.isSet = true → s.calls = [] →
    s.readyTasks.Perm (events.filterMap (Event.suspended? threadCount))

/-- In every run of any callers the first setter wins, every registered callback runs exactly once
and only after the state is set, and every coroutine that suspends on the future is enqueued to its
thread exactly once. -/
theorem run_exactly_once (hrun : (System.lts threadCount).Run .new events s) :
    ExactlyOnce threadCount events s := by
  have h := run_books hrun
  have hsub : (events.filterMap Event.ran?).Subperm (events.filterMap Event.registered?) :=
    (List.sublist_append_left _ _).subperm.trans h.once.subperm
  have hwaiting : s.state.isSet = true →
      (events.filterMap Event.ran? ++ s.calls.flatMap Call.pending).Perm
        (events.filterMap Event.registered?) := by
    intro hisSet
    have honce := h.once
    rwa [System.pending, (h.stored hisSet).1] at honce
  have hexact : s.state.isSet = true → s.calls = [] →
      (events.filterMap Event.ran?).Perm (events.filterMap Event.registered?) := by
    intro hisSet hcalls
    have hperm := hwaiting hisSet
    rwa [hcalls, List.flatMap_nil, List.append_nil] at hperm
  refine ⟨h.result, ?_, ?_, fun hunset => (h.early hunset).1, hsub, hwaiting,
    exists_run_to_quiescence, hexact, ?_, ?_⟩
  · intro hunset result
    obtain ⟨toCall, state, hset⟩ : ∃ toCall state, s.state.set result = .ok (toCall, state) := by
      cases result <;>
        simp [TSharedState.set, TSharedState.setValue, TSharedState.setException, hunset]
    refine ⟨{ s with state := state, calls := .calling toCall :: s.calls }, ?_, (h.set hset).2.1⟩
    simp [System.step, hset]
  · intro hisSet result
    cases result <;> simp [System.step, TSharedState.set, TSharedState.setValue,
      TSharedState.setException, hisSet]
  · have hregistered := (List.sublist_append_left _ _).subperm.trans h.suspended.subperm
    obtain ⟨ran, hperm, hsublist⟩ := hsub
    rw [h.enqueued]
    exact .trans ⟨_, hperm.filterMap _, hsublist.filterMap _⟩ hregistered
  · intro hisSet hcalls
    have hsuspended := h.suspended
    rw [hcalls, List.filterMap_nil, List.append_nil] at hsuspended
    rw [h.enqueued]
    exact ((hexact hisSet hcalls).filterMap _).trans hsuspended

/-- A coroutine suspends, the future is set before it subscribes, and it is enqueued to thread 1. -/
theorem run_exactly_once_set_between :
    ∃ (events : List (Event Nat Nat Nat Nat)) (s : System Nat Nat Nat Nat),
      (System.lts 2).Run .new events s ∧ s.state.isSet = true ∧ s.calls = [] ∧
        s.readyTasks = [(1, 7)] ∧ ExactlyOnce 2 events s := by
  have hexec : Lts.exec (System.step 2) (System.new : System Nat Nat Nat Nat)
      [.awaitReady 7 3, .set (.ok 5), .proceed 1, .proceed 0, .proceed 0] = some (_, _) := rfl
  have hrun : (System.lts 2).Run .new _ _ := Lts.run_of_exec hexec
  exact ⟨_, _, hrun, rfl, rfl, rfl, run_exactly_once hrun⟩

end Run

end Tpcc.Future
