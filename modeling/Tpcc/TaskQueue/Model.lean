import Tpcc.Lib.Transition
import Tpcc.Spsc.Linearizable
import Mathlib.Logic.Function.Basic

/-! `TTaskQueue`: the threads of `RunThread`, the calls that coroutines and other threads make, and
`Join`.  A step makes one access to what threads share, but for two: the stop test at the top of the
loop goes with the drain of the external queue, which holds that queue's lock, and the test of the
waiting queue, which no other thread pops, goes with the test of the counter.  The bounded queues
are FIFOs, and the timer queue is the collection of its handles: the deadline tests depend on the
clock, so an action says which sleeping handle passes one. -/

namespace Tpcc.TaskQueue

open Lib

/-- The constructor's arguments.  `PerThreadContext.resize` bounds the number of threads. -/
structure Config where
  threadCount : Nat
  maxRunningInternal : UInt64
  maxReadyInternal : UInt64
  maxReadyExternal : UInt64
  threadCount_pos : 0 < threadCount
  threadCount_le : threadCount ≤ 2 ^ 60

namespace Config

/-- The context that a thread hint selects. -/
def home (c : Config) (threadHint : Nat) : Nat := threadHint % c.threadCount

/-- The capacity of the internal queues. -/
def internalCapacity (c : Config) : Nat := Spsc.slotCount c.maxReadyInternal

/-- The capacity of the external queues. -/
def externalCapacity (c : Config) : Nat := Spsc.slotCount c.maxReadyExternal

end Config

structure TPerThreadContext (η : Type) where
  sleepingTasks : List η
  readyTasksInternal : List η
  inflightWaitingTasksInternal : List η
  readyTasksExternal : List η

/-- A context of a new queue. -/
def TPerThreadContext.empty {η : Type} : TPerThreadContext η := ⟨[], [], [], []⟩

/-- Where `RunThread` goes on when a resumed coroutine returns: the rest of the external batch, or
the end of the iteration. -/
inductive Back (η : Type)
  | batch (rest : List η)
  | internal

/-- The code inside `resume()`: client code, or a step of `IncInflight` that it called. -/
inductive Inside (η : Type)
  | client
  | incCompare (h : η) (threadHint : Nat) (prev : UInt64)
  | incUndo (h : η) (threadHint : Nat)
  | incPush (h : η) (threadHint : Nat)

/-- Where a thread stands in `RunThread`. -/
inductive Point (η : Type)
  | top
  | batch (rest : List η)
  | inflight
  | inflightAdd
  | inflightCompare (prev : UInt64)
  | inflightUndo
  | inflightPush (h : η)
  | sleeping
  | internal
  | running (back : Back η) (inside : Inside η)
  | exited
  | terminated

/-- Where `Join` stands. -/
inductive JoinPoint
  | notCalled
  | joining
  | draining (context : Nat)
  | returned
  deriving DecidableEq

structure TTaskQueue (η : Type) where
  runningInternalCount : UInt64
  stopRequested : Bool
  wakeupAll : Bool
  context : Nat → TPerThreadContext η
  thread : Nat → Point η
  join : JoinPoint

/-- What has happened so far: the handles the queue accepted (before the stop request and in all),
resumed and destroyed; the requests, slots taken, slots given back and exceptions of `IncInflight`
and `DecInflight`; for each thread the handles that joined and left its waiting queue; and the
admissions in order, by an `IncInflight` that returns false or by the move to the ready queue. -/
structure History (η : Type) where
  acceptedBeforeStop : List η
  accepted : List η
  resumed : List η
  destroyed : List η
  requested : List η
  admitted : List η
  released : List η
  threw : List η
  enqueued : Nat → List η
  moved : Nat → List η
  order : List η

/-- The calls of `ITaskQueue`.  `DecInflight` has no argument; the handle says whose slot it gives
back. -/
inductive Call (η : Type)
  | taskReady (h : η) (threadHint : Nat)
  | asyncSleep (h : η) (threadHint : Nat)
  | incInflight (h : η) (threadHint : Nat)
  | decInflight (h : η)
  | taskReadyThreadSafe (h : η) (threadHint : Nat)

/-- How a call ends. -/
inductive Outcome
  | ok
  | queueFull
  | admitted
  | refused
  deriving DecidableEq

/-- What the queue tells the code that uses it. -/
inductive Note (η : Type)
  | resumed (thread : Nat) (h : η)
  | finished (thread : Option Nat) (call : Call η) (outcome : Outcome)

/-- The code that uses the queue: which calls it can make on a thread, when resumed code returns,
moves of its own, and what it does with the queue's answers.  Thread `none` is outside the queue. -/
structure Client (η γ ι : Type) where
  call : γ → Option Nat → Call η → Option γ
  ret : γ → Nat → Option γ
  own : γ → ι → Option γ
  notify : γ → Note η → γ

/-- Code that calls the queue in any way. -/
def Client.any (η : Type) : Client η Unit Empty where
  call _ _ _ := some ()
  ret _ _ := some ()
  own _ i := i.elim
  notify _ _ := ()

structure System (η γ : Type) where
  q : TTaskQueue η
  history : History η
  client : γ

/-- Who moves next.  `pick` is the sleeping handle whose deadline has passed, if any. -/
inductive Action (η ι : Type)
  | loop (t : Nat) (pick : Option Nat)
  | call (t : Option Nat) (call : Call η)
  | ret (t : Nat)
  | own (i : ι)
  | wakeupAndNeverSleep
  | requestStop
  | join

section Update

variable {η γ : Type}

namespace TTaskQueue

def setThread (q : TTaskQueue η) (t : Nat) (p : Point η) : TTaskQueue η :=
  { q with thread := Function.update q.thread t p }

def setContext (q : TTaskQueue η) (t : Nat) (c : TPerThreadContext η) : TTaskQueue η :=
  { q with context := Function.update q.context t c }

def setCount (q : TTaskQueue η) (n : UInt64) : TTaskQueue η := { q with runningInternalCount := n }

def setJoin (q : TTaskQueue η) (p : JoinPoint) : TTaskQueue η := { q with join := p }

end TTaskQueue

namespace System

def setThread (s : System η γ) (t : Nat) (p : Point η) : System η γ :=
  { s with q := s.q.setThread t p }

def setContext (s : System η γ) (t : Nat) (c : TPerThreadContext η) : System η γ :=
  { s with q := s.q.setContext t c }

def setCount (s : System η γ) (n : UInt64) : System η γ := { s with q := s.q.setCount n }

def setJoin (s : System η γ) (p : JoinPoint) : System η γ := { s with q := s.q.setJoin p }

def setClient (s : System η γ) (client : γ) : System η γ := { s with client := client }

/-- A handle that the queue takes from a caller. -/
def accept (s : System η γ) (h : η) : System η γ :=
  { s with
    history := { s.history with
      accepted := s.history.accepted ++ [h]
      acceptedBeforeStop :=
        if s.q.stopRequested then s.history.acceptedBeforeStop
        else s.history.acceptedBeforeStop ++ [h] } }

def recordResumed (s : System η γ) (h : η) : System η γ :=
  { s with history := { s.history with resumed := s.history.resumed ++ [h] } }

def recordDestroyed (s : System η γ) (h : η) : System η γ :=
  { s with history := { s.history with destroyed := s.history.destroyed ++ [h] } }

def recordRequested (s : System η γ) (h : η) : System η γ :=
  { s with history := { s.history with requested := s.history.requested ++ [h] } }

def recordAdmitted (s : System η γ) (h : η) : System η γ :=
  { s with history := { s.history with admitted := s.history.admitted ++ [h] } }

def recordReleased (s : System η γ) (h : η) : System η γ :=
  { s with history := { s.history with released := s.history.released ++ [h] } }

def recordThrew (s : System η γ) (h : η) : System η γ :=
  { s with history := { s.history with threw := s.history.threw ++ [h] } }

def recordEnqueued (s : System η γ) (t : Nat) (h : η) : System η γ :=
  { s with
    history := { s.history with
      enqueued := Function.update s.history.enqueued t (s.history.enqueued t ++ [h]) } }

def recordMoved (s : System η γ) (t : Nat) (h : η) : System η γ :=
  { s with
    history := { s.history with
      moved := Function.update s.history.moved t (s.history.moved t ++ [h])
      order := s.history.order ++ [h] } }

def recordDirect (s : System η γ) (h : η) : System η γ :=
  { s with history := { s.history with order := s.history.order ++ [h] } }

end System

end Update

/-- `TryPush`: the queue with the handle, or nothing when it is full. -/
def tryPush {η : Type} (capacity : Nat) (queue : List η) (h : η) : Option (List η) :=
  if queue.length < capacity then some (queue ++ [h]) else none

section Step

variable {η γ ι : Type} (c : Config) (client : Client η γ ι)

/-- A thread resumes a handle; `back` is where it goes on afterwards. -/
def resume (s : System η γ) (t : Nat) (back : Back η) (h : η) : System η γ :=
  ((s.setThread t (.running back .client)).recordResumed h).setClient
    (client.notify s.client (.resumed t h))

/-- A call ends, and the client goes on with its outcome. -/
def finish (s : System η γ) (t : Option Nat) (call : Call η) (outcome : Outcome) : System η γ :=
  s.setClient (client.notify s.client (.finished t call outcome))

/-- The next step of the loop of `ProcessInflightQueue` before the pop: `fetch_add` takes a slot for
the first waiting handle when the count that it read is below the limit. -/
def inflightFetchAdd (s : System η γ) (t : Nat) : System η γ :=
  let prev := s.q.runningInternalCount
  let s' := (s.setCount (prev + 1)).setThread t (.inflightCompare prev)
  match (s.q.context t).inflightWaitingTasksInternal with
  | h :: _ => if prev < c.maxRunningInternal then s'.recordAdmitted h else s'
  | [] => s'

/-- The next step of thread `t` in `RunThread`, or inside an `IncInflight` that resumed code called.
A handle in a queue belongs to a suspended coroutine, so it is never `done()`. -/
def runThread (s : System η γ) (t : Nat) (pick : Option Nat) : Option (System η γ) :=
  let ctx := s.q.context t
  match s.q.thread t with
  | .top =>
    if s.q.stopRequested then some (s.setThread t .exited)
    else
      some ((s.setContext t { ctx with readyTasksExternal := [] }).setThread t
        (.batch ctx.readyTasksExternal))
  | .batch [] => some (s.setThread t .inflight)
  | .batch (h :: rest) =>
    if s.q.stopRequested then some (s.setThread t .inflight)
    else some (resume client s t (.batch rest) h)
  | .inflight =>
    if c.maxRunningInternal ≠ 0 ∧ ctx.inflightWaitingTasksInternal ≠ [] ∧
        s.q.runningInternalCount < c.maxRunningInternal then
      some (s.setThread t .inflightAdd)
    else
      some (s.setThread t .sleeping)
  | .inflightAdd => some (inflightFetchAdd c s t)
  | .inflightCompare prev =>
    if prev < c.maxRunningInternal then
      match ctx.inflightWaitingTasksInternal with
      | h :: rest =>
        some (((s.setContext t { ctx with inflightWaitingTasksInternal := rest }).setThread t
          (.inflightPush h)).recordMoved t h)
      | [] => some (s.setThread t .inflight)
    else
      some (s.setThread t .inflightUndo)
  | .inflightUndo =>
    some ((s.setCount (s.q.runningInternalCount - 1)).setThread t .sleeping)
  | .inflightPush h =>
    match tryPush c.internalCapacity ctx.readyTasksInternal h with
    | some ready =>
      some ((s.setContext t { ctx with readyTasksInternal := ready }).setThread t .inflight)
    | none => some (s.setThread t .inflight)
  | .sleeping =>
    match pick with
    | some i =>
      match ctx.sleepingTasks[i]? with
      | some h =>
        let ctx' := { ctx with sleepingTasks := ctx.sleepingTasks.eraseIdx i }
        match tryPush c.internalCapacity ctx.readyTasksInternal h with
        | some ready => some (s.setContext t { ctx' with readyTasksInternal := ready })
        | none => some ((s.setContext t ctx').setThread t .terminated)
      | none => none
    | none =>
      if s.q.wakeupAll ∧ ctx.sleepingTasks ≠ [] then none
      else some (s.setThread t .internal)
  | .internal =>
    match ctx.readyTasksInternal with
    | h :: rest =>
      some (resume client (s.setContext t { ctx with readyTasksInternal := rest }) t .internal h)
    | [] => some (s.setThread t .top)
  | .running _ .client => none
  | .running back (.incCompare h threadHint prev) =>
    if c.maxRunningInternal = 0 ∨ prev < c.maxRunningInternal then
      some (finish client ((s.setThread t (.running back .client)).recordDirect h) (some t)
        (.incInflight h threadHint) .admitted)
    else
      some (s.setThread t (.running back (.incUndo h threadHint)))
  | .running back (.incUndo h threadHint) =>
    some ((s.setCount (s.q.runningInternalCount - 1)).setThread t
      (.running back (.incPush h threadHint)))
  | .running back (.incPush h threadHint) =>
    let target := c.home threadHint
    let targetCtx := s.q.context target
    let s' := s.setThread t (.running back .client)
    match tryPush c.internalCapacity targetCtx.inflightWaitingTasksInternal h with
    | some waiting =>
      some (finish client
        (((s'.setContext target { targetCtx with inflightWaitingTasksInternal := waiting }).accept
          h).recordEnqueued target h)
        (some t) (.incInflight h threadHint) .refused)
    | none =>
      some (finish client (s'.recordThrew h) (some t) (.incInflight h threadHint) .queueFull)
  | .exited => none
  | .terminated => none

/-- The point of a thread after the coroutine that it resumed returns. -/
def Back.point : Back η → Point η
  | .batch rest => .batch rest
  | .internal => .top

/-- `TaskReadyThreadSafe`, on a queue thread or outside. -/
def taskReadyThreadSafe (s : System η γ) (t : Option Nat) (h : η) (threadHint : Nat) :
    System η γ :=
  let target := c.home threadHint
  let ctx := s.q.context target
  match tryPush c.externalCapacity ctx.readyTasksExternal h with
  | some external =>
    finish client ((s.setContext target { ctx with readyTasksExternal := external }).accept h) t
      (.taskReadyThreadSafe h threadHint) .ok
  | none => finish client s t (.taskReadyThreadSafe h threadHint) .queueFull

/-- A call that resumed code makes on thread `t`. -/
def callOnThread (s : System η γ) (t : Nat) (back : Back η) : Call η → System η γ
  | .taskReady h threadHint =>
    let target := c.home threadHint
    let ctx := s.q.context target
    match tryPush c.internalCapacity ctx.readyTasksInternal h with
    | some ready =>
      finish client ((s.setContext target { ctx with readyTasksInternal := ready }).accept h)
        (some t) (.taskReady h threadHint) .ok
    | none => finish client s (some t) (.taskReady h threadHint) .queueFull
  | .asyncSleep h threadHint =>
    let target := c.home threadHint
    let ctx := s.q.context target
    finish client
      ((s.setContext target { ctx with sleepingTasks := ctx.sleepingTasks ++ [h] }).accept h)
      (some t) (.asyncSleep h threadHint) .ok
  | .incInflight h threadHint =>
    let prev := s.q.runningInternalCount
    let s' := ((s.setCount (prev + 1)).setThread t
      (.running back (.incCompare h threadHint prev))).recordRequested h
    if c.maxRunningInternal = 0 ∨ prev < c.maxRunningInternal then s'.recordAdmitted h else s'
  | .decInflight h =>
    finish client ((s.setCount (s.q.runningInternalCount - 1)).recordReleased h) (some t)
      (.decInflight h) .ok
  | .taskReadyThreadSafe h threadHint => taskReadyThreadSafe c client s (some t) h threadHint

/-- The next handle that `Join` destroys in a context, with the context after it. -/
def drainNext (ctx : TPerThreadContext η) : Option (η × TPerThreadContext η) :=
  match ctx with
  | ⟨h :: rest, ready, waiting, external⟩ => some (h, ⟨rest, ready, waiting, external⟩)
  | ⟨[], h :: rest, waiting, external⟩ => some (h, ⟨[], rest, waiting, external⟩)
  | ⟨[], [], waiting, h :: rest⟩ => some (h, ⟨[], [], waiting, rest⟩)
  | ⟨[], [], h :: rest, []⟩ => some (h, ⟨[], [], rest, []⟩)
  | ⟨[], [], [], []⟩ => none

/-- Whether every thread has left `RunThread`. -/
def allExited (s : System η γ) : Bool :=
  (List.range c.threadCount).all fun t =>
    match s.q.thread t with
    | .exited => true
    | _ => false

/-- The next step of `Join` after its stop request. -/
def joinStep (s : System η γ) : Option (System η γ) :=
  match s.q.join with
  | .notCalled => none
  | .joining => if allExited c s then some (s.setJoin (.draining 0)) else none
  | .draining k =>
    if k < c.threadCount then
      match drainNext (s.q.context k) with
      | some (h, ctx) => some ((s.setContext k ctx).recordDestroyed h)
      | none => some (s.setJoin (.draining (k + 1)))
    else
      some (s.setJoin .returned)
  | .returned => none

/-- One step of the whole system. -/
def step (s : System η γ) : Action η ι → Option (System η γ)
  | .loop t pick => if t < c.threadCount then runThread c client s t pick else none
  | .call (some t) call =>
    if t < c.threadCount then
      match s.q.thread t with
      | .running back .client =>
        (client.call s.client (some t) call).map fun state =>
          callOnThread c client (s.setClient state) t back call
      | _ => none
    else none
  | .call none call =>
    match call with
    | .taskReadyThreadSafe h threadHint =>
      (client.call s.client none call).map fun state =>
        taskReadyThreadSafe c client (s.setClient state) none h threadHint
    | _ => none
  | .ret t =>
    if t < c.threadCount then
      match s.q.thread t with
      | .running back .client =>
        (client.ret s.client t).map fun state => (s.setClient state).setThread t back.point
      | _ => none
    else none
  | .own i => (client.own s.client i).map s.setClient
  | .wakeupAndNeverSleep => some { s with q := { s.q with wakeupAll := true } }
  | .requestStop =>
    if s.q.join = .notCalled then
      some { s with q := { s.q with stopRequested := true, join := .joining } }
    else none
  | .join => joinStep c s

end Step

section Runs

variable {η γ ι : Type}

/-- A queue right after `Run()`. -/
def TTaskQueue.started : TTaskQueue η where
  runningInternalCount := 0
  stopRequested := false
  wakeupAll := false
  context _ := .empty
  thread _ := .top
  join := .notCalled

def History.empty : History η :=
  ⟨[], [], [], [], [], [], [], [], fun _ => [], fun _ => [], []⟩

/-- The system at the start of `client`. -/
def System.start (client : γ) : System η γ := ⟨.started, .empty, client⟩

/-- The runs of a task queue with its client, from any of the client's initial states. -/
def lts (c : Config) (client : Client η γ ι) (init : γ → Prop) :
    Lts (System η γ) (Action η ι) :=
  .ofAction (fun s => ∃ state, init state ∧ s = .start state) (step c client)

end Runs

end Tpcc.TaskQueue
