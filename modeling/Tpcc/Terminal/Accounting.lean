import Tpcc.Stats.TerminalStats
import Tpcc.Terminal.Server

/-! The cycles of `TTerminal::Run`: what each of them counts, what it has committed, and how often it
gives back its slot. -/

namespace Tpcc.Terminal

open Lib Db Transaction Stats

/-- What the terminal meets besides the server: the connections that it acquires, its random choices,
the clock, and the end of the warmup. -/
structure Environment (context : TTransactionContext) extends Server where
  noDelays : Bool
  connection : Nat → Backend
  txIndex : Nat → ETransactionType
  draws : Nat → Draws context
  latencies : Nat → Latencies
  stopWarmup : Nat → Bool
  pooled : ∀ n, Pooled (shutdown n) (connection n)

/-- The calls and suspensions around a cycle. -/
inductive Event
  | keying
  | admitted
  | decInflight
  | think
  | done
  deriving DecidableEq

/-- An attempt: when it begins, its outcome, the number of transactions that the server has committed in
its course, whether its transaction has requested the stop, and whether a stop is requested when the
handlers run. -/
structure AttemptRecord where
  time : Nat
  outcome : Outcome
  commits : Nat
  asked : Bool
  stop : Bool
  deriving DecidableEq

/-- A cycle from its admission on, with the stats before and after it.  `time` is when the stop token is
read after the admission. -/
structure Cycle where
  type : ETransactionType
  time : Nat
  attempts : List AttemptRecord
  counter : Option Counter
  fatal : Bool
  before : TTerminalStats
  after : TTerminalStats

/-- The cycle of a stop that is seen right after the admission. -/
def Cycle.unattempted (type : ETransactionType) (time : Nat) (stats : TTerminalStats) : Cycle :=
  ⟨type, time, [], none, false, stats, stats⟩

/-- The state of `TTerminal::Run`.  `stopped` says that the terminal itself has requested the stop. -/
structure World where
  time : Nat
  stopped : Bool
  warmupWasStopped : Bool
  stats : TTerminalStats
  log : List Event
  cycles : List Cycle

namespace World

/-- An event, after which time has passed. -/
def event (w : World) (e : Event) : World :=
  { w with time := w.time + 1, log := w.log ++ [e] }

/-- A handler or the `try` block counts; `AddOK` has been called before. -/
def counted (w : World) (type : ETransactionType) : Option Counter → World
  | some .failed => { w with stats := w.stats.incFailed type }
  | some .userAborted => { w with stats := w.stats.incUserAborted type }
  | some .ok => w
  | none => w

def start (h : THistogram) : World := ⟨0, false, false, .new h, [], []⟩

end World

section Run

variable {context : TTransactionContext} (env : Environment context)

/-- `StopToken.stop_requested()`. -/
def stopRequested (w : World) : Bool := env.stop w.time || w.stopped

/-- What is recorded of an attempt that begins at the given time. -/
def AttemptRecord.of (type : ETransactionType) (time : Nat) (stopped : Bool) : AttemptRecord :=
  let b := env.connection time
  let a := attempt env.toServer (type.taskFunc (env.draws time)) time stopped b
  { time := time
    outcome := a.outcome
    commits := a.backend.commits + a.backend.implicitCommits - (b.commits + b.implicitCommits)
    asked := a.stopped
    stop := env.stop (a.time + 1) || a.stopped }

/-- The `try` block of one attempt: the outcome that the handlers see. -/
def tryOnce (type : ETransactionType) (w : World) : World × AttemptRecord × Outcome :=
  let b := env.connection w.time
  let a := attempt env.toServer (type.taskFunc (env.draws w.time)) w.time w.stopped b
  let record := AttemptRecord.of env type w.time w.stopped
  let w' := { w with time := a.time + 1, stopped := a.stopped }
  match a.outcome with
  | .result true =>
    match TTerminalStats.addOK type (env.latencies a.time) w'.stats with
    | .ok _ stats => ({ w' with stats := stats }, record, .result true)
    | .error e stats => ({ w' with stats := stats }, record, .threw e)
  | outcome => (w', record, outcome)

/-- The retry loop of a cycle that was admitted at `time`: `left` passes, the first of them attempt
`k`. -/
def attempts (type : ETransactionType) (time : Nat) (before : TTerminalStats) :
    Nat → Nat → World → List AttemptRecord → World × Cycle
  | 0, _, w, records => (w, ⟨type, time, records, none, false, before, w.stats⟩)
  | left + 1, k, w, records =>
    let (w', record, outcome) := tryOnce env type w
    let v := verdict (stopRequested env w') k outcome
    let w'' := w'.counted type v.counter
    if v.shouldRetry then attempts type time before left (k + 1) w'' (records ++ [record])
    else (w'', ⟨type, time, records ++ [record], v.counter, v.fatal, before, w''.stats⟩)

/-- The end of the warmup, seen at the top of the loop. -/
def clearWarmup (w : World) : World :=
  if !w.warmupWasStopped && env.stopWarmup w.time then
    { w with stats := w.stats.clearOnce, warmupWasStopped := true }
  else w

/-- The suspensions for keying and thinking. -/
def delay (e : Event) (w : World) : World := if env.noDelays then w else w.event e

/-- The body of the loop, with whether the loop goes on. -/
def loopBody (w : World) : World × Bool :=
  let w := clearWarmup env w
  let type := env.txIndex w.time
  let w := delay env .keying w
  if !env.noDelays && stopRequested env w then (w, false)
  else
    let w := w.event .admitted
    if stopRequested env w then
      (({ w with cycles := w.cycles ++ [Cycle.unattempted type w.time w.stats] }).event .decInflight,
        false)
    else
      let (w', c) := attempts env type w.time w.stats (maxRetries + 1) 0 w []
      let w' := ({ w' with cycles := w'.cycles ++ [c] }).event .decInflight
      if c.fatal then ({ w' with stopped := true }, false) else (delay env .think w', true)

/-- `TTerminal::Run` up to `n` passes of its loop. -/
def run : Nat → World → World
  | 0, w => w
  | n + 1, w =>
    if stopRequested env w then w.event .done
    else
      match loopBody env w with
      | (w', true) => run n w'
      | (w', false) => w'.event .done

end Run

/-- A `DbError` that may go away, when no stop is requested. -/
def Outcome.Retryable (stop : Bool) : Outcome → Prop
  | .threw (.db code) => stop = false ∧ isRetryableTxError (classifyDbError code) = true
  | _ => False

/-- Any other exception than the user's abort, when neither a stop is requested nor the server shuts
down. -/
def Outcome.Fatal (stop : Bool) : Outcome → Prop
  | .threw (.db code) => stop = false ∧ classifyDbError code ≠ .shutdown ∧
    isRetryableTxError (classifyDbError code) = false
  | .threw (.runtime _) => stop = false
  | _ => False

/-- An exception that is taken for an interruption by the shutdown. -/
def Outcome.Interrupted (stop : Bool) : Outcome → Prop
  | .threw (.db code) => stop = true ∨ classifyDbError code = .shutdown
  | .threw (.runtime _) => stop = true
  | _ => False

/-- The cycle has ended through one of the branches for the shutdown: before the first attempt, or
with its last one. -/
def Cycle.Interrupted (c : Cycle) : Prop :=
  c.attempts = [] ∨ ∃ a ∈ c.attempts.getLast?, a.outcome.Interrupted a.stop

/-- What is said of a cycle.  Its attempts are runs of its transaction, one at least unless the stop is
requested when it is admitted; each is repeated for its outcome, and the outcome of the last gives the
counter and the fatal flag.  Only a cycle that counts as OK has committed, once and last. -/
structure Cycle.Accounted {context : TTransactionContext} (env : Environment context) (c : Cycle) :
    Prop where
  attempts_le : c.attempts.length ≤ maxRetries + 1
  ran : ∀ a ∈ c.attempts, a = .of env c.type a.time false
  unattempted : c.attempts = [] ↔ env.stop c.time = true
  repeated : ∀ a ∈ c.attempts.dropLast, a.outcome.Retryable a.stop
  stats : TTerminalStats.Changed c.type c.counter c.before c.after
  ok : c.counter = some .ok ↔ ∃ a ∈ c.attempts.getLast?, a.outcome = .result true
  failed : c.counter = some .failed ↔ ∃ a ∈ c.attempts.getLast?, a.outcome = .result false ∨
    a.outcome.Retryable a.stop ∧ c.attempts.length = maxRetries + 1
  userAborted : c.counter = some .userAborted ↔
    ∃ a ∈ c.attempts.getLast?, a.outcome = .threw .userAborted
  fatal : c.fatal = true ↔ ∃ a ∈ c.attempts.getLast?, a.outcome.Fatal a.stop
  uncounted : c.counter = none ↔ c.fatal = true ∨ c.Interrupted
  committed : c.counter = some .ok → ∃ earlier last, c.attempts = earlier ++ [last] ∧
    last.commits = 1 ∧ ∀ a ∈ earlier, a.commits = 0
  uncommitted : c.counter ≠ some .ok → ∀ a ∈ c.attempts, a.commits = 0

/-- Whether the terminal has a slot after an event; a second admission, a sleep or the end with the
slot, and a second `DecInflight`, are errors. -/
def Event.slot : Bool → Event → Option Bool
  | false, .admitted => some true
  | true, .decInflight => some false
  | false, .keying => some false
  | false, .think => some false
  | false, .done => some false
  | _, _ => none

section Verdict

variable {stop : Bool} {k : Nat} {outcome : Outcome}

/-- The branches behind an attempt. -/
inductive Branch (stop : Bool) (k : Nat) (outcome : Outcome) : Verdict → Prop
  | ok (h : outcome = .result true) : Branch stop k outcome ⟨some .ok, false, false⟩
  | rejected (h : outcome = .result false) : Branch stop k outcome ⟨some .failed, false, false⟩
  | aborted (h : outcome = .threw .userAborted) :
    Branch stop k outcome ⟨some .userAborted, false, false⟩
  | interrupted (h : outcome.Interrupted stop) : Branch stop k outcome ⟨none, false, false⟩
  | retried (h : outcome.Retryable stop) (hk : k < maxRetries) :
    Branch stop k outcome ⟨none, true, false⟩
  | exhausted (h : outcome.Retryable stop) (hk : ¬k < maxRetries) :
    Branch stop k outcome ⟨some .failed, false, false⟩
  | fatal (h : outcome.Fatal stop) : Branch stop k outcome ⟨none, false, true⟩

/-- The three kinds of exceptions that the handlers tell apart. -/
theorem Outcome.of_threw
    (h : outcome.Interrupted stop ∨ outcome.Retryable stop ∨ outcome.Fatal stop) :
    (∀ value, outcome ≠ .result value) ∧ outcome ≠ .threw .userAborted := by
  refine ⟨?_, ?_⟩
  · rintro value rfl
    rcases h with h | h | h
    · exact h
    · exact h
    · exact h
  · rintro rfl
    rcases h with h | h | h
    · exact h
    · exact h
    · exact h

theorem Outcome.Retryable.not_fatal (h : outcome.Retryable stop) : ¬outcome.Fatal stop := by
  cases outcome with
  | result value => exact fun _ => h
  | threw e =>
    cases e with
    | db code => exact fun hfatal => Bool.false_ne_true (hfatal.2.2.symm.trans h.2)
    | userAborted => exact fun _ => h
    | runtime what => exact fun _ => h

theorem Outcome.Retryable.not_interrupted (h : outcome.Retryable stop) :
    ¬outcome.Interrupted stop := by
  cases outcome with
  | result value => exact fun _ => h
  | threw e =>
    cases e with
    | db code =>
      rintro (hstop | hkind)
      · exact Bool.false_ne_true (h.1.symm.trans hstop)
      · have hretryable := h.2
        rw [hkind] at hretryable
        exact Bool.false_ne_true hretryable
    | userAborted => exact fun _ => h
    | runtime what => exact fun _ => h

theorem Outcome.Fatal.not_interrupted (h : outcome.Fatal stop) : ¬outcome.Interrupted stop := by
  cases outcome with
  | result value => exact fun _ => h
  | threw e =>
    cases e with
    | db code =>
      rintro (hstop | hkind)
      · exact Bool.false_ne_true (h.1.symm.trans hstop)
      · exact h.2.1 hkind
    | userAborted => exact fun _ => h
    | runtime what =>
      have hstop : stop = false := h
      rw [hstop]
      exact Bool.false_ne_true

/-- What the last attempt of a cycle counts and whether it is fatal. -/
structure Counts (stop : Bool) (k : Nat) (outcome : Outcome) (v : Verdict) : Prop where
  ok : v.counter = some .ok ↔ outcome = .result true
  failed : v.counter = some .failed ↔
    outcome = .result false ∨ outcome.Retryable stop ∧ k = maxRetries
  userAborted : v.counter = some .userAborted ↔ outcome = .threw .userAborted
  fatal : v.fatal = true ↔ outcome.Fatal stop
  uncounted : v.counter = none ↔ v.fatal = true ∨ outcome.Interrupted stop

theorem Branch.counts {v : Verdict} (h : Branch stop k outcome v) (hk : k ≤ maxRetries)
    (hlast : v.shouldRetry = false) : Counts stop k outcome v := by
  cases h with
  | ok h =>
    subst h
    exact ⟨by simp, by simp [Outcome.Retryable], by simp, by simp [Outcome.Fatal],
      by simp [Outcome.Interrupted]⟩
  | rejected h =>
    subst h
    exact ⟨by simp, by simp, by simp, by simp [Outcome.Fatal], by simp [Outcome.Interrupted]⟩
  | aborted h =>
    subst h
    exact ⟨by simp, by simp [Outcome.Retryable], by simp, by simp [Outcome.Fatal],
      by simp [Outcome.Interrupted]⟩
  | interrupted h =>
    obtain ⟨hresult, haborted⟩ := Outcome.of_threw (.inl h)
    have hfatal : ¬outcome.Fatal stop := fun hf => hf.not_interrupted h
    have hretryable : ¬outcome.Retryable stop := fun hr => hr.not_interrupted h
    exact ⟨by simp [hresult], by simp [hresult, hretryable], by simp [haborted], by simp [hfatal],
      by simp [h]⟩
  | retried h hk => cases hlast
  | exhausted h hk' =>
    obtain ⟨hresult, haborted⟩ := Outcome.of_threw (.inr (.inl h))
    have hmax : k = maxRetries := Nat.le_antisymm hk (Nat.not_lt.1 hk')
    exact ⟨by simp [hresult], by simp [h, hmax], by simp [haborted], by simp [h.not_fatal],
      by simp [h.not_interrupted]⟩
  | fatal h =>
    obtain ⟨hresult, haborted⟩ := Outcome.of_threw (.inr (.inr h))
    have hretryable : ¬outcome.Retryable stop := fun hr => hr.not_fatal h
    exact ⟨by simp [hresult], by simp [hresult, hretryable], by simp [haborted], by simp [h],
      by simp⟩

end Verdict

section Spec

variable {context : TTransactionContext}

/-- What a pass through the `try` block leaves alone. -/
structure SameRun (w w' : World) : Prop where
  log : w'.log = w.log
  cycles : w'.cycles = w.cycles

theorem SameRun.trans {w w' w'' : World} (h : SameRun w w') (h' : SameRun w' w'') :
    SameRun w w'' := ⟨h'.log.trans h.log, h'.cycles.trans h.cycles⟩

theorem Outcome.Retryable.stop {stop : Bool} {outcome : Outcome} (h : outcome.Retryable stop) :
    stop = false := by
  cases outcome with
  | result value => exact h.elim
  | threw e =>
    cases e with
    | db code => exact h.1
    | userAborted => exact h.elim
    | runtime what => exact h.elim

/-- What holds between two passes of the loop of `TTerminal::Run`. -/
structure Books (env : Environment context) (w : World) : Prop where
  cycles : ∀ c ∈ w.cycles, c.Accounted env
  sampled : w.stats.Sampled
  slot : w.log.foldlM Event.slot false = some false
  admitted : w.cycles.length = w.log.count .admitted
  stopped : w.stopped = true →
    ∃ c ∈ w.cycles, c.fatal = true ∨ ∃ a ∈ c.attempts, a.asked = true

namespace Books

variable {env : Environment context} {w w' : World}

/-- A pass that changes neither the cycles nor the events. -/
theorem same (h : Books env w) (hsame : SameRun w w') (hsampled : w'.stats.Sampled)
    (hstopped : w'.stopped = w.stopped) : Books env w' where
  cycles := by
    rw [hsame.cycles]
    exact h.cycles
  sampled := hsampled
  slot := by
    rw [hsame.log]
    exact h.slot
  admitted := by
    rw [hsame.cycles, hsame.log]
    exact h.admitted
  stopped := by
    rw [hsame.cycles, hstopped]
    exact h.stopped

/-- An event without the slot. -/
theorem event (h : Books env w) {e : Event} (he : e.slot false = some false) :
    Books env (w.event e) where
  cycles := h.cycles
  sampled := h.sampled
  slot := by
    rw [World.event, List.foldlM_append, h.slot]
    simpa using he
  admitted := by
    have hne : [e].count .admitted = 0 := by
      cases e with
      | admitted => cases he
      | _ => rfl
    rw [World.event, List.count_append, hne]
    exact h.admitted
  stopped := h.stopped

end Books

/-- The terminal has ended, because a stop has been requested: by others, by one of its transactions, or
by itself after a fatal cycle. -/
def Finished (env : Environment context) (w : World) : Prop :=
  Event.done ∈ w.log ∧ ((∃ t, env.stop t = true) ∨
    ∃ c ∈ w.cycles, c.fatal = true ∨ ∃ a ∈ c.attempts, a.asked = true)

theorem Books.finished {env : Environment context} {w : World} (h : Books env w)
    (hends : (∃ t, env.stop t = true) ∨ w.stopped = true) : Finished env (w.event .done) :=
  ⟨List.mem_append_right _ (List.mem_singleton_self _), hends.imp_right h.stopped⟩

end Spec

end Tpcc.Terminal
