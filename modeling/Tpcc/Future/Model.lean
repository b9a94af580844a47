import Tpcc.Lib.Transition

/-! `TSharedState` of `future.h` and the awaiter `TSuspendWithFuture` of `task_queue.h`.  What runs
under the mutex is one step; the callbacks run outside it, one step each.  The state without a value
is the case of a unit value. -/

namespace Tpcc.Future

open Lib

/-- A callback: the one of `TSuspendWithFuture`, or any other. -/
inductive Callback (κ η : Type)
  | taskReady (handle : η) (threadHint : Nat)
  | other (k : κ)
  deriving DecidableEq

structure TSharedState (T E C : Type) where
  value : Option T
  exception : Option E
  isSet : Bool
  callbacks : List C

namespace TSharedState

variable {T E C : Type}

def new : TSharedState T E C := ⟨none, none, false, []⟩

/-- `SetValue` under the mutex, with the callbacks to call. -/
def setValue (s : TSharedState T E C) (value : T) : Except String (List C × TSharedState T E C) :=
  if s.isSet then .error "TSharedState::SetValue called on already-set state"
  else .ok (s.callbacks, { s with value := some value, isSet := true, callbacks := [] })

/-- `SetException` under the mutex. -/
def setException (s : TSharedState T E C) (ex : E) :
    Except String (List C × TSharedState T E C) :=
  if s.isSet then .error "TSharedState::SetException called on already-set state"
  else .ok (s.callbacks, { s with exception := some ex, isSet := true, callbacks := [] })

/-- `AddCallback` under the mutex: whether the callback is to be called at once. -/
def addCallback (s : TSharedState T E C) (cb : C) : Bool × TSharedState T E C :=
  if s.isSet then (true, s) else (false, { s with callbacks := s.callbacks ++ [cb] })

def ready (s : TSharedState T E C) : Bool := s.isSet

/-- What `Get` ends with once the state is set. -/
def result (s : TSharedState T E C) : Option (Except E T) :=
  if s.isSet then
    match s.exception with
    | some ex => some (.error ex)
    | none => s.value.map .ok
  else none

/-- The call of either setter. -/
def set (s : TSharedState T E C) : Except E T → Except String (List C × TSharedState T E C)
  | .ok value => s.setValue value
  | .error ex => s.setException ex

end TSharedState

/-- A call that is not over: a setter with the callbacks it has still to call, an `AddCallback` that
found the state set, or a coroutine whose `await_ready` was false. -/
inductive Call (κ η : Type)
  | calling (toCall : List (Callback κ η))
  | inline (cb : Callback κ η)
  | suspending (handle : η) (threadHint : Nat)
  deriving DecidableEq

/-- A shared state, the calls on it that are not over, and the handles that `TaskReadyThreadSafe` has
pushed, each with the index of its thread. -/
structure System (T E κ η : Type) where
  state : TSharedState T E (Callback κ η)
  calls : List (Call κ η)
  readyTasks : List (Nat × η)

/-- A new call, or the next step of the `i`-th call that is not over. -/
inductive Action (T E κ η : Type)
  | set (result : Except E T)
  | subscribe (k : κ)
  | isReady
  | awaitReady (handle : η) (threadHint : Nat)
  | proceed (i : Nat)

/-- What a step did. -/
inductive Event (T E κ η : Type)
  | set (result : Except E T)
  | refused (what : String)
  | registered (cb : Callback κ η)
  | ran (cb : Callback κ η)
  | ready (isReady : Bool)
  | suspended (handle : η) (threadHint : Nat)
  | returned

namespace System

variable {T E κ η : Type}

def new : System T E κ η := ⟨.new, [], []⟩

/-- A callback runs; that of `TSuspendWithFuture` calls `TaskReadyThreadSafe`. -/
def runCallback (threadCount : Nat) (s : System T E κ η) : Callback κ η → System T E κ η
  | .taskReady handle threadHint =>
    { s with readyTasks := s.readyTasks ++ [(threadHint % threadCount, handle)] }
  | .other _ => s

/-- `AddCallback` under the mutex, where `calls` are the other calls. -/
def register (s : System T E κ η) (calls : List (Call κ η)) (cb : Callback κ η) :
    System T E κ η :=
  let (ready, state) := s.state.addCallback cb
  { s with state := state, calls := if ready then .inline cb :: calls else calls }

/-- The next step of the call `call`, where `calls` are the other calls. -/
def proceed (threadCount : Nat) (s : System T E κ η) (calls : List (Call κ η)) :
    Call κ η → Event T E κ η × System T E κ η
  | .calling [] => (.returned, { s with calls := calls })
  | .calling (cb :: toCall) =>
    (.ran cb, { s with calls := .calling toCall :: calls }.runCallback threadCount cb)
  | .inline cb => (.ran cb, { s with calls := calls }.runCallback threadCount cb)
  | .suspending handle threadHint =>
    (.registered (.taskReady handle threadHint), s.register calls (.taskReady handle threadHint))

def step (threadCount : Nat) (s : System T E κ η) :
    Action T E κ η → Option (Event T E κ η × System T E κ η)
  | .set result =>
    match s.state.set result with
    | .error what => some (.refused what, s)
    | .ok (toCall, state) =>
      some (.set result, { s with state := state, calls := .calling toCall :: s.calls })
  | .subscribe k => some (.registered (.other k), s.register s.calls (.other k))
  | .isReady => some (.ready s.state.ready, s)
  | .awaitReady handle threadHint =>
    if s.state.ready then some (.ready true, s)
    else
      some (.suspended handle threadHint,
        { s with calls := .suspending handle threadHint :: s.calls })
  | .proceed i =>
    match s.calls[i]? with
    | none => none
    | some call => some (s.proceed threadCount (s.calls.eraseIdx i) call)

/-- The runs of any callers, for a queue with `threadCount` threads. -/
def lts (threadCount : Nat) : Lts (System T E κ η) (Event T E κ η) :=
  .ofStep (· = .new) (step threadCount)

end System

end Tpcc.Future
