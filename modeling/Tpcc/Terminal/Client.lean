import Tpcc.TaskQueue.Disposal
import Tpcc.TaskQueue.Admission
import Tpcc.Db.Pool
import Tpcc.Terminal.Attempt

/-! The terminals of `RunSync` as the client of the task queue: the points of `TTerminal::Run` at
which it touches something shared, the transaction's coroutine, the I/O threads that complete its
statements, and the main thread. -/

namespace Tpcc.Terminal

open Lib TaskQueue Db

/-- `TERMINALS_PER_WAREHOUSE`. -/
def terminalsPerWarehouse : Nat := 10

/-- The arguments of `RunSync` that matter here, after it has chosen the number of threads.  A
terminal is an object of at least 64 bytes. -/
structure RunConfig where
  warehouseCount : Nat
  maxInflight : UInt64
  threadCount : Nat
  noDelays : Bool
  simulateTransactionMs : Nat
  simulateTransactionSelect1 : Nat
  threadCount_pos : 0 < threadCount
  threadCount_le : threadCount ≤ 2 ^ 60
  terminals_le : warehouseCount * terminalsPerWarehouse ≤ 2 ^ 58

namespace RunConfig

variable (cfg : RunConfig)

def terminalCount : Nat := cfg.warehouseCount * terminalsPerWarehouse

def poolSize : Nat := min cfg.terminalCount cfg.maxInflight.toNat

def isSimulationMode : Bool :=
  decide (cfg.simulateTransactionMs > 0) || decide (cfg.simulateTransactionSelect1 > 0)

def needsConnections : Bool :=
  !cfg.isSimulationMode || decide (cfg.simulateTransactionSelect1 > 0)

/-- Keying and think times apply. -/
def delays : Bool := !cfg.noDelays && !cfg.isSimulationMode

/-- The arguments of `CreateTaskQueue`. -/
def queue : TaskQueue.Config where
  threadCount := cfg.threadCount
  maxRunningInternal := cfg.maxInflight
  maxReadyInternal := UInt64.ofNat cfg.terminalCount
  maxReadyExternal := UInt64.ofNat cfg.terminalCount
  threadCount_pos := cfg.threadCount_pos
  threadCount_le := cfg.threadCount_le

end RunConfig

/-- The two coroutines of a terminal. -/
inductive Role
  | terminal
  | transaction
  deriving DecidableEq

instance : Fintype Role where
  elems := {.terminal, .transaction}
  complete := by
    intro role
    cases role with
    | terminal => decide
    | transaction => decide

/-- A coroutine handle: its terminal and which of the two it is. -/
structure Handle (n : Nat) where
  id : Fin n
  role : Role
  deriving DecidableEq

instance (n : Nat) : Fintype (Handle n) :=
  .ofEquiv (Fin n × Role)
    ⟨fun p => ⟨p.1, p.2⟩, fun h => (h.id, h.role), fun _ => rfl, fun _ => rfl⟩

/-- What follows `DecInflight`: the break after admission, the exit of a fatal cycle, or the next
cycle. -/
inductive AfterRelease
  | stop
  | fatal
  | next
  deriving DecidableEq

/-- The points of `TTerminal::Run`; `k` counts the attempts. -/
inductive Place
  | loopTop
  | keying
  | keyed
  | request
  | requesting
  | admitted
  | attempt (k : Nat)
  | holding (k : Nat)
  | finished (k : Nat) (outcome : Outcome)
  | releasing (k : Nat) (outcome : Outcome)
  | caught (k : Nat) (outcome : Outcome)
  | release (after : AfterRelease)
  | thinking
  deriving DecidableEq

/-- The transaction's coroutine: it runs; it has submitted a statement, and `ready` says whether the
future is set; `await_ready` said no and it is about to subscribe; `Subscribe` found the future set;
its callback is registered; an I/O thread has set the future and runs the callback; the queue has
its handle. -/
inductive Tx
  | running
  | issued (ready : Bool)
  | subscribing (ready : Bool)
  | notifying
  | subscribed
  | completing
  | queued
  deriving DecidableEq

/-- A terminal: not started; suspended with its handle in the queue, to go on at `p`; running at
`p`; inside its transaction, `suspended` once it awaits the result; the transaction has ended and
its promise is about to push the terminal's handle; ended. -/
inductive Control
  | created
  | queued (p : Place)
  | running (p : Place)
  | transaction (k : Nat) (x : Tx) (suspended : Bool)
  | handing (k : Nat) (outcome : Outcome)
  | done
  deriving DecidableEq

/-- The transaction's code is on the stack of a queue thread. -/
def Tx.onThread : Tx → Bool
  | .running | .issued _ | .subscribing _ | .notifying => true
  | .subscribed | .completing | .queued => false

namespace Control

/-- Code of the terminal is on the stack of a queue thread. -/
def onThread : Control → Bool
  | .running _ => true
  | .transaction _ x suspended => !suspended || x.onThread
  | .handing _ _ => true
  | .created | .queued _ | .done => false

/-- The queue has the handle of the terminal or of its transaction. -/
def stores : Control → Role → Bool
  | .queued _, .terminal => true
  | .transaction _ .queued _, .transaction => true
  | _, _ => false

end Control

/-- The state of all terminals, with the terminal that each queue thread runs and the connection
pool.  `fault` is raised when a handle is resumed that is not suspended, or when a queue is full. -/
structure Terminals (n : Nat) where
  stopRequested : Bool
  control : Fin n → Control
  active : Nat → Option (Fin n)
  pool : ObConnectionPool Nat (Fin n)
  fault : Bool

/-- The steps outside the task queue: the interrupt, `CancelAll`, the code on thread `t`, and an I/O
thread that completes the statement of a terminal. -/
inductive Step (n : Nat)
  | requestStop
  | cancelAll
  | advance (t : Nat)
  | submit (t : Nat)
  | finish (t : Nat) (outcome : Outcome)
  | complete (id : Fin n) (op : Operation)

namespace Terminals

variable {n : Nat}

/-- The terminal goes on at `control`; when it leaves the stack of thread `t`, the thread has
nothing left to run. -/
def move (s : Terminals n) (t : Option Nat) (id : Fin n) (control : Control) : Terminals n :=
  { s with
    control := Function.update s.control id control
    active := match t with
      | some t => if control.onThread then s.active else Function.update s.active t none
      | none => s.active }

/-- A step of the pool on the way to `control`. -/
def withPool (s : Terminals n) (action : Db.Action (Fin n)) (t : Nat) (id : Fin n)
    (control : Control) : Option (Terminals n) :=
  (s.pool.step action).map fun pool => { s with pool := pool }.move (some t) id control

end Terminals

/-- The next step of a statement's `co_await`. -/
def Tx.advance : Tx → Option Tx
  | .issued true => some .running
  | .issued false => some (.subscribing false)
  | .subscribing true => some .notifying
  | .subscribing false => some .subscribed
  | .running | .notifying | .subscribed | .completing | .queued => none

/-- `SetValue` or `SetException` on an I/O thread. -/
def Tx.complete : Tx → Option Tx
  | .issued false => some (.issued true)
  | .subscribing false => some (.subscribing true)
  | .subscribed => some .completing
  | _ => none

section Client

variable (cfg : RunConfig) {n : Nat}

/-- The next step of the code on thread `t`, where it is not a call of the queue. -/
def advance (s : Terminals n) (t : Nat) : Option (Terminals n) :=
  match s.active t with
  | none => none
  | some id =>
    match s.control id with
    | .running .loopTop =>
      if s.stopRequested then some (s.move (some t) id .done)
      else some (s.move (some t) id (.running (if cfg.delays then .keying else .request)))
    | .running .keyed =>
      if s.stopRequested then some (s.move (some t) id .done)
      else some (s.move (some t) id (.running .request))
    | .running .admitted =>
      if s.stopRequested then some (s.move (some t) id (.running (.release .stop)))
      else some (s.move (some t) id (.running (.attempt 0)))
    | .running (.attempt k) =>
      if cfg.needsConnections then
        s.withPool (.acquireSession id) t id (.running (.holding k))
      else some (s.move (some t) id (.running (.holding k)))
    | .running (.holding k) => some (s.move (some t) id (.transaction k .running false))
    | .running (.finished k outcome) =>
      if cfg.needsConnections then
        s.withPool (.releaseConnection id) t id (.running (.releasing k outcome))
      else some (s.move (some t) id (.running (.caught k outcome)))
    | .running (.releasing k outcome) =>
      s.withPool (.pushFree id) t id (.running (.caught k outcome))
    | .running (.caught k outcome) =>
      let v := verdict s.stopRequested k outcome
      if v.shouldRetry then some (s.move (some t) id (.running (.attempt (k + 1))))
      else
        some (s.move (some t) id (.running (.release (if v.fatal then .fatal else .next))))
    | .transaction k x suspended =>
      if x.onThread then
        x.advance.map fun x' => s.move (some t) id (.transaction k x' suspended)
      else if suspended then none
      else some (s.move (some t) id (.transaction k x true))
    | _ => none

/-- The transaction on thread `t` submits a statement. -/
def submit (s : Terminals n) (t : Nat) : Option (Terminals n) :=
  match s.active t with
  | none => none
  | some id =>
    match s.control id with
    | .transaction k .running suspended =>
      if cfg.needsConnections then
        some (s.move (some t) id (.transaction k (.issued false) suspended))
      else none
    | _ => none

/-- The transaction on thread `t` ends, and its promise is set: a terminal that awaits it is pushed
to its thread, one that called it goes on. -/
def finish (s : Terminals n) (t : Nat) (outcome : Outcome) : Option (Terminals n) :=
  match s.active t with
  | none => none
  | some id =>
    match s.control id with
    | .transaction k .running true => some (s.move (some t) id (.handing k outcome))
    | .transaction k .running false => some (s.move (some t) id (.running (.finished k outcome)))
    | _ => none

/-- An I/O thread carries out the statement of a terminal and sets its future. -/
def complete (s : Terminals n) (id : Fin n) (op : Operation) : Option (Terminals n) :=
  match s.control id with
  | .transaction k x suspended =>
    match x.complete, s.pool.step (.operate id op) with
    | some x', some pool =>
      some ({ s with pool := pool }.move none id (.transaction k x' suspended))
    | _, _ => none
  | _ => none

def own (s : Terminals n) : Step n → Option (Terminals n)
  | .requestStop => some { s with stopRequested := true }
  | .cancelAll => (s.pool.step .cancelAll).map fun pool => { s with pool := pool }
  | .advance t => advance cfg s t
  | .submit t => submit cfg s t
  | .finish t outcome => finish s t outcome
  | .complete id op => complete s id op

/-- Whether a terminal makes a call at its point, on a queue thread. -/
def Control.calls : Control → Call (Handle n) → Bool
  | .running .keying, .asyncSleep ⟨_, .terminal⟩ _ => true
  | .running .thinking, .asyncSleep ⟨_, .terminal⟩ _ => true
  | .running .request, .incInflight ⟨_, .terminal⟩ _ => true
  | .running (.release _), .decInflight ⟨_, .terminal⟩ => true
  | .transaction _ .running _, .asyncSleep ⟨_, .transaction⟩ _ =>
    decide (cfg.simulateTransactionMs ≠ 0)
  | .transaction _ .notifying _, .taskReadyThreadSafe ⟨_, .transaction⟩ _ => true
  | .handing _ _, .taskReadyThreadSafe ⟨_, .terminal⟩ _ => true
  | _, _ => false

/-- Whether the main thread (in `TTerminal::Start`) or an I/O thread (in the callback of a future)
makes a call for a terminal. -/
def Control.callsOutside : Control → Call (Handle n) → Bool
  | .created, .taskReadyThreadSafe ⟨_, .terminal⟩ _ => true
  | .transaction _ .completing _, .taskReadyThreadSafe ⟨_, .transaction⟩ _ => true
  | _, _ => false

/-- The handle and the thread hint of a call; `DecInflight` has no hint. -/
def Call.subject : Call (Handle n) → Handle n × Option Nat
  | .taskReady h threadHint => (h, some threadHint)
  | .asyncSleep h threadHint => (h, some threadHint)
  | .incInflight h threadHint => (h, some threadHint)
  | .decInflight h => (h, none)
  | .taskReadyThreadSafe h threadHint => (h, some threadHint)

/-- Inside `IncInflight` the terminal waits for the answer. -/
def Terminals.entering (s : Terminals n) (t : Nat) (id : Fin n) : Call (Handle n) → Terminals n
  | .incInflight _ _ => s.move (some t) id (.running .requesting)
  | _ => s

/-- The terminals call the queue with their own handles and their ids as thread hints. -/
def call (s : Terminals n) (thread : Option Nat) (c : Call (Handle n)) : Option (Terminals n) :=
  let id := (Call.subject c).1.id
  if (Call.subject c).2.all (· = id.val) then
    match thread with
    | some t =>
      if s.active t = some id ∧ (s.control id).calls cfg c then some (s.entering t id c) else none
    | none => if (s.control id).callsOutside c then some s else none
  else none

/-- Where a terminal is once the queue has taken one of its handles. -/
def Control.suspended : Control → Role → Control
  | .created, .terminal => .queued .loopTop
  | .running .keying, .terminal => .queued .keyed
  | .running .thinking, .terminal => .queued .loopTop
  | .running .requesting, .terminal => .queued .admitted
  | .handing k outcome, .terminal => .queued (.finished k outcome)
  | .transaction k _ suspended, .transaction => .transaction k .queued suspended
  | control, _ => control

/-- Where a terminal goes on after `DecInflight`. -/
def AfterRelease.control : AfterRelease → Control
  | .stop => .done
  | .fatal => .done
  | .next => .running (if cfg.delays then .thinking else .loopTop)

/-- What the terminals do with a finished call. -/
def finished (s : Terminals n) (thread : Option Nat) (c : Call (Handle n)) :
    TaskQueue.Outcome → Terminals n
  | .queueFull => { s with fault := true }
  | .admitted => s.move thread (Call.subject c).1.id (.running .admitted)
  | .refused => s.move thread (Call.subject c).1.id
      ((s.control (Call.subject c).1.id).suspended .terminal)
  | .ok =>
    match c with
    | .decInflight ⟨id, _⟩ =>
      match s.control id with
      | .running (.release after) =>
        { s with stopRequested := s.stopRequested || decide (after = AfterRelease.fatal) }.move thread id
          (after.control cfg)
      | _ => s
    | _ => s.move thread (Call.subject c).1.id
        ((s.control (Call.subject c).1.id).suspended (Call.subject c).1.role)

/-- A resumed coroutine goes on where it was suspended. -/
def resumed (s : Terminals n) (t : Nat) (h : Handle n) : Terminals n :=
  match h.role, s.control h.id with
  | .terminal, .queued p =>
    { s with
      control := Function.update s.control h.id (.running p)
      active := Function.update s.active t (some h.id) }
  | .transaction, .transaction k .queued true =>
    { s with
      control := Function.update s.control h.id (.transaction k .running true)
      active := Function.update s.active t (some h.id) }
  | _, _ => { s with fault := true }

/-- The terminals as a client of the task queue.  Control goes back to `RunThread` when no code of a
terminal is left on the thread. -/
def terminals : Client (Handle n) (Terminals n) (Step n) where
  call s thread c := call cfg s thread c
  ret s t := if s.active t = none then some s else none
  own s i := own cfg s i
  notify s
    | .resumed t h => resumed s t h
    | .finished thread c outcome => finished cfg s thread c outcome

/-- Before the first `Start`. -/
def Terminals.start : Terminals cfg.terminalCount where
  stopRequested := false
  control _ := .created
  active _ := none
  pool := .new (if cfg.needsConnections then List.range cfg.poolSize else [])
  fault := false

/-- The runs of `RunSync` over the task queue. -/
def lts : Lts (System (Handle cfg.terminalCount) (Terminals cfg.terminalCount))
    (TaskQueue.Action (Handle cfg.terminalCount) (Step cfg.terminalCount)) :=
  TaskQueue.lts cfg.queue (terminals cfg) fun state => state = Terminals.start cfg

end Client

end Tpcc.Terminal
