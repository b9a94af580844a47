import Tpcc.Db.Insert
import Tpcc.Db.Pool
import Tpcc.Future.Model

/-! The closures that the operations of `ObSession` submit to the executor.  The promise is fulfilled
in the `try` block of the operation's work, and the fulfilment runs the promise's callbacks. -/

namespace Tpcc.Db

open Lib

/-- A callback of a promise: it returns, or it throws. -/
inductive Subscriber
  | returns
  | throws (e : Failure)
  deriving DecidableEq

/-- The callback of `TSuspendWithFuture`: `TaskReadyThreadSafe` throws when the queue is full. -/
def taskReadyThreadSafe (queueFull : Bool) : Subscriber :=
  if queueFull then .throws (.runtime "Task queue is full: external") else .returns

/-- What a closure works on: the session's connection and the promise.  `settlements` counts the calls
of `SetValue` and `SetException` that set the promise, `failed` says whether the shutdown check or a
call to the server has failed, and `undone` whether a transaction was rolled back before that. -/
structure Job where
  link : Link
  promise : Future.TSharedState Unit Failure Subscriber
  settlements : Nat
  failed : Bool
  undone : Bool

namespace Job

open ObSession

/-- A closure that starts; `subscribers` are the callbacks that are registered when the promise is
set. -/
def new (link : Link) (subscribers : List Subscriber) : Job :=
  ⟨link, ⟨none, none, false, subscribers⟩, 0, false, false⟩

/-- A part of the closure that uses the connection. -/
def onLink {α : Type} (m : EStateM Failure Link α) : EStateM Failure Job α := fun j =>
  match m j.link with
  | .ok a l => .ok a { j with link := l }
  | .error e l => .error e { j with link := l }

/-- `CheckShutdown`. -/
def checkShutdown (shutdownFlag : Bool) : EStateM Failure Job Unit := do
  modify fun j => { j with failed := j.failed || shutdownFlag }
  onLink (ObSession.checkShutdown shutdownFlag)

/-- A call to the server. -/
def call (effect : Backend → Backend) (reply : Reply) : EStateM Failure Job Unit := do
  modify fun j => { j with failed := j.failed || decide (reply ≠ .ok) }
  onLink (Db.call effect reply)

/-- `EnsureTxn`. -/
def ensureTxn (start : Reply) : EStateM Failure Job Unit := do
  let j ← get
  if !j.link.inTxn then
    call Backend.startTransaction start
    onLink (setInTxn true)

/-- `if (inTxn_) { conn_->Rollback(); inTxn_ = false; }`. -/
def rollbackIfInTxn : EStateM Failure Job Unit := do
  modify fun j => { j with undone := j.undone || (j.link.inTxn && !j.failed) }
  onLink ObSession.rollbackIfInTxn

/-- `ResetTxnOnError`. -/
def resetTxnOnError : EStateM Failure Job Unit := rollbackIfInTxn

/-- The `flush` of `ExecuteBulk`. -/
def flush (columns : List String) (batch : List BulkRow) (reply : Reply) :
    EStateM Failure Job Unit :=
  if batch.isEmpty then pure ()
  else if batch.all fun row => row.length == columns.length then
    call (·.statement .none) reply
  else
    throw (.runtime "Bulk row column count mismatch")

/-- The writer's rows, as in `ObSession.emitRows`. -/
def emitRows (columns : List String) (replies : Nat → Reply) :
    Nat → List BulkRow → List BulkRow → EStateM Failure Job (Nat × List BulkRow)
  | flushed, batch, [] => pure (flushed, batch)
  | flushed, batch, row :: rows =>
    if (batch ++ [row]).length ≥ bulkBatchRows then do
      flush columns (batch ++ [row]) (replies flushed)
      emitRows columns replies (flushed + 1) [] rows
    else
      emitRows columns replies flushed (batch ++ [row]) rows

/-- The rows of a bulk insert, once its transaction is open. -/
def writeBatches (columns : List String) (rows : List BulkRow) (writerEnd : WriterEnd)
    (replies : Nat → Reply) : EStateM Failure Job Unit := do
  let (flushed, batch) ← emitRows columns replies 0 [] rows
  onLink writerEnd.run
  flush columns batch (replies flushed)

/-- The loop that calls the callbacks. -/
def notify : List Subscriber → EStateM Failure Job Unit
  | [] => pure ()
  | .returns :: toCall => notify toCall
  | .throws e :: _ => throw e

/-- `TPromise::SetValue` and `TPromise::SetException`. -/
def settle (result : Except Failure Unit) : EStateM Failure Job Unit := fun j =>
  match j.promise.set result with
  | .error what => .error (.runtime what) j
  | .ok (toCall, promise) =>
    notify toCall { j with promise := promise, settlements := j.settlements + 1 }

def setValue : EStateM Failure Job Unit := settle (.ok ())

def setException (e : Failure) : EStateM Failure Job Unit := settle (.error e)

end Job

namespace Operation

/-- The operation up to `SetValue`. -/
def work (shutdownFlag : Bool) : Operation → EStateM Failure Job Unit
  | .execute start effect reply => do
    Job.checkShutdown shutdownFlag
    Job.ensureTxn start
    Job.call (·.statement effect) reply
  | .executeBulk start columns rows writerEnd replies => do
    Job.checkShutdown shutdownFlag
    Job.ensureTxn start
    Job.writeBatches columns rows writerEnd replies
  | .commit reply => do
    Job.checkShutdown shutdownFlag
    let j ← get
    if j.link.inTxn then
      Job.call Backend.commit reply
      Job.onLink (setInTxn false)
  | .rollback => Job.rollbackIfInTxn
  | .executeNonTx effect reply => do
    Job.rollbackIfInTxn
    Job.call (·.statement effect) reply

/-- What the `catch` block does before `SetException`. -/
def recover : Operation → EStateM Failure Job Unit
  | .execute .. | .executeBulk .. => Job.resetTxnOnError
  | .commit _ | .rollback => Job.onLink (setInTxn false)
  | .executeNonTx .. => pure ()

/-- The closure of the operation. -/
def closure (shutdownFlag : Bool) (op : Operation) : EStateM Failure Job Unit := do
  try
    op.work shutdownFlag
    Job.setValue
  catch e =>
    op.recover
    Job.setException e

end Operation

/-- The job in which a closure ends, whether it returns or lets an exception escape. -/
def finalJob (m : EStateM Failure Job Unit) (j : Job) : Job :=
  match m j with
  | .ok _ j' => j'
  | .error _ j' => j'

/-- The closure of an operation sets its promise once, lets no exception escape, and rolls no
transaction back before the shutdown check or a call to the server has failed. -/
structure ClosureOk (shutdownFlag : Bool) (op : Operation) (link : Link)
    (subscribers : List Subscriber) : Prop where
  once : (finalJob (op.closure shutdownFlag) (.new link subscribers)).settlements = 1
  caught : ∃ j, op.closure shutdownFlag (.new link subscribers) = .ok () j
  kept : (finalJob (op.closure shutdownFlag) (.new link subscribers)).undone = false

/-- The writer of a bulk insert does its part while the server does: its batches have rows of the
right length, and after the full ones it returns. -/
def Writes (columns : List String) (writerEnd : ObSession.WriterEnd) (replies : Nat → Reply)
    (last : List ObSession.BulkRow) : Nat → List (List ObSession.BulkRow) → Prop
  | _, [] => writerEnd = .returns ∧ ∀ row ∈ last, row.length = columns.length
  | flushed, batch :: batches =>
    (∀ row ∈ batch, row.length = columns.length) ∧
      (replies flushed = .ok → Writes columns writerEnd replies last (flushed + 1) batches)

/-- Nothing but a failure of the shutdown check or of the server makes the operation roll back: it is
no rollback itself, and the writer of a bulk insert is not to blame. -/
def Operation.KeepsTxn (shutdownFlag inTxn : Bool) : Operation → Prop
  | .execute .. | .commit _ => True
  | .executeBulk start columns rows writerEnd replies =>
    shutdownFlag = false → inTxn = true ∨ start = .ok →
      Writes columns writerEnd replies (splitRows [] rows).2 0 (splitRows [] rows).1
  | .rollback | .executeNonTx .. => inTxn = false

section Work

variable {shutdownFlag : Bool} {op : Operation} {link : Link} {subscribers : List Subscriber}

/-- How the work of a closure ends, with the `catch` block up to `SetException`: the connection is as
the session's operation leaves it. -/
inductive WorkEnds (shutdownFlag : Bool) (op : Operation) (link : Link)
    (subscribers : List Subscriber) : Prop
  | returns (l : Link) (undone : Bool)
      (hwork : op.work shutdownFlag (.new link subscribers) =
        .ok () { Job.new l subscribers with undone := undone })
      (hrun : op.run shutdownFlag link = .ok () l)
      (hkept : undone = false ↔ op.KeepsTxn shutdownFlag link.inTxn)
  | throws (e : Failure) (j : Job) (l : Link) (failed undone : Bool)
      (hwork : op.work shutdownFlag (.new link subscribers) = .error e j)
      (hrecover : op.recover j =
        .ok () { Job.new l subscribers with failed := failed, undone := undone })
      (hrun : op.run shutdownFlag link = .error e l)
      (hkept : undone = false ↔ op.KeepsTxn shutdownFlag link.inTxn)

theorem execute_ends (start : Reply) (effect : TxnEffect) (reply : Reply) :
    WorkEnds shutdownFlag (.execute start effect reply) link subscribers := by
  obtain ⟨inTxn, backend⟩ := link
  cases shutdownFlag with
  | true =>
    cases inTxn with
    | true => exact .throws _ _ _ _ _ rfl rfl rfl ⟨fun _ => trivial, fun _ => rfl⟩
    | false => exact .throws _ _ _ _ _ rfl rfl rfl ⟨fun _ => trivial, fun _ => rfl⟩
  | false =>
    cases inTxn with
    | true =>
      cases reply with
      | ok => exact .returns _ _ rfl rfl ⟨fun _ => trivial, fun _ => rfl⟩
      | error code stillOpen =>
        exact .throws _ _ _ _ _ rfl rfl rfl ⟨fun _ => trivial, fun _ => rfl⟩
    | false =>
      cases start with
      | error code stillOpen =>
        exact .throws _ _ _ _ _ rfl rfl rfl ⟨fun _ => trivial, fun _ => rfl⟩
      | ok =>
        cases reply with
        | ok => exact .returns _ _ rfl rfl ⟨fun _ => trivial, fun _ => rfl⟩
        | error code stillOpen =>
          exact .throws _ _ _ _ _ rfl rfl rfl ⟨fun _ => trivial, fun _ => rfl⟩

theorem commit_ends (reply : Reply) : WorkEnds shutdownFlag (.commit reply) link subscribers := by
  obtain ⟨inTxn, backend⟩ := link
  cases shutdownFlag with
  | true => exact .throws _ _ _ _ _ rfl rfl rfl ⟨fun _ => trivial, fun _ => rfl⟩
  | false =>
    cases inTxn with
    | false => exact .returns _ _ rfl rfl ⟨fun _ => trivial, fun _ => rfl⟩
    | true =>
      cases reply with
      | ok => exact .returns _ _ rfl rfl ⟨fun _ => trivial, fun _ => rfl⟩
      | error code stillOpen =>
        exact .throws _ _ _ _ _ rfl rfl rfl ⟨fun _ => trivial, fun _ => rfl⟩

theorem rollback_ends : WorkEnds shutdownFlag .rollback link subscribers := by
  obtain ⟨inTxn, backend⟩ := link
  cases inTxn with
  | true => exact .returns _ _ rfl rfl Iff.rfl
  | false => exact .returns _ _ rfl rfl Iff.rfl

theorem executeNonTx_ends (effect : TxnEffect) (reply : Reply) :
    WorkEnds shutdownFlag (.executeNonTx effect reply) link subscribers := by
  obtain ⟨inTxn, backend⟩ := link
  cases reply with
  | ok =>
    cases inTxn with
    | true => exact .returns _ _ rfl rfl Iff.rfl
    | false => exact .returns _ _ rfl rfl Iff.rfl
  | error code stillOpen =>
    cases inTxn with
    | true => exact .throws _ _ _ _ _ rfl rfl rfl Iff.rfl
    | false => exact .throws _ _ _ _ _ rfl rfl rfl Iff.rfl

section Bulk

open ObSession

variable {columns : List String} {replies : Nat → Reply} {writerEnd : WriterEnd} {l : Link}

/-- A flush fails on the server when its rows have the right length, and before it otherwise. -/
theorem flush_ends (columns : List String) (batch : List BulkRow) (reply : Reply) (l : Link)
    (subscribers : List Subscriber) :
    (Job.flush columns batch reply (.new l subscribers) = .ok () (.new l subscribers) ∧
      flush columns batch reply l = .ok () l ∧ (∀ row ∈ batch, row.length = columns.length) ∧
      (batch ≠ [] → reply = .ok)) ∨
    ∃ e l' failed, Job.flush columns batch reply (.new l subscribers) =
        .error e { Job.new l' subscribers with failed := failed } ∧
      flush columns batch reply l = .error e l' ∧ l'.inTxn = l.inTxn ∧
      (failed = true ↔ ∀ row ∈ batch, row.length = columns.length) ∧
      (failed = true → reply ≠ .ok) := by
  unfold Job.flush flush
  by_cases hempty : batch.isEmpty = true
  · rw [if_pos hempty, if_pos hempty, List.isEmpty_iff.1 hempty]
    exact .inl ⟨rfl, rfl, List.forall_mem_nil _, fun hne => absurd rfl hne⟩
  · rw [if_neg hempty, if_neg hempty]
    have hwidth : (batch.all fun row => row.length == columns.length) = true ↔
        ∀ row ∈ batch, row.length = columns.length := by simp
    by_cases hwide : (batch.all fun row => row.length == columns.length) = true
    · rw [if_pos hwide, if_pos hwide]
      cases reply with
      | ok => exact .inl ⟨rfl, rfl, hwidth.1 hwide, fun _ => rfl⟩
      | error code stillOpen =>
        refine .inr ⟨_, _, true, rfl, rfl, rfl, ⟨fun _ => hwidth.1 hwide, fun _ => rfl⟩, ?_⟩
        exact fun _ => Reply.noConfusion
    · rw [if_neg hwide, if_neg hwide]
      refine .inr ⟨_, l, false, rfl, rfl, rfl, ⟨fun h => Bool.noConfusion h, fun h => ?_⟩,
        fun h => Bool.noConfusion h⟩
      exact absurd (hwidth.2 h) hwide

/-- The flushes of the full batches: they all succeed, or one fails and the writer did its part exactly
if the server is to blame. -/
theorem emitRows_ends (columns : List String) (replies : Nat → Reply) (writerEnd : WriterEnd)
    (flushed : Nat) (batch rows : List BulkRow) (l : Link) (subscribers : List Subscriber) :
    (∃ n, Job.emitRows columns replies flushed batch rows (.new l subscribers) =
        .ok (n, (splitRows batch rows).2) (.new l subscribers) ∧
      emitRows columns replies flushed batch rows l = .ok (n, (splitRows batch rows).2) l ∧
      (Writes columns writerEnd replies (splitRows batch rows).2 flushed (splitRows batch rows).1 ↔
        writerEnd = .returns ∧ ∀ row ∈ (splitRows batch rows).2, row.length = columns.length)) ∨
    ∃ e l' failed, Job.emitRows columns replies flushed batch rows (.new l subscribers) =
        .error e { Job.new l' subscribers with failed := failed } ∧
      emitRows columns replies flushed batch rows l = .error e l' ∧ l'.inTxn = l.inTxn ∧
      (failed = true ↔ Writes columns writerEnd replies (splitRows batch rows).2 flushed
        (splitRows batch rows).1) := by
  induction rows generalizing flushed batch with
  | nil => exact .inl ⟨flushed, rfl, rfl, Iff.rfl⟩
  | cons row rows ih =>
    unfold Job.emitRows emitRows splitRows
    by_cases hfull : (batch ++ [row]).length ≥ bulkBatchRows
    · rw [if_pos hfull, if_pos hfull, if_pos hfull]
      rcases flush_ends columns (batch ++ [row]) (replies flushed) l subscribers with
        ⟨hjob, hlink, hwide, hok⟩ | ⟨e, l', failed, hjob, hlink, hinTxn, hwide, hfailed⟩
      · have hreply := hok (by simp)
        have hwrites : Writes columns writerEnd replies (splitRows [] rows).2 flushed
            ((batch ++ [row]) :: (splitRows [] rows).1) ↔
            Writes columns writerEnd replies (splitRows [] rows).2 (flushed + 1)
              (splitRows [] rows).1 :=
          ⟨fun h => h.2 hreply, fun h => ⟨hwide, fun _ => h⟩⟩
        rw [bind_of_ok hjob, bind_of_ok hlink, hwrites]
        exact ih (flushed + 1) []
      · refine .inr ⟨e, l', failed, bind_of_error hjob, bind_of_error hlink, hinTxn, ?_⟩
        exact ⟨fun h => ⟨hwide.1 h, fun hreply => absurd hreply (hfailed h)⟩, fun h => hwide.2 h.1⟩
    · rw [if_neg hfull, if_neg hfull, if_neg hfull]
      exact ih flushed (batch ++ [row])

/-- The part of `ExecuteBulk` after `EnsureTxn`. -/
def writeBatches (columns : List String) (rows : List BulkRow) (writerEnd : WriterEnd)
    (replies : Nat → Reply) : EStateM Failure Link Unit := do
  let (flushed, batch) ← emitRows columns replies 0 [] rows
  writerEnd.run
  flush columns batch (replies flushed)

theorem writeBatches_ends (columns : List String) (rows : List BulkRow) (writerEnd : WriterEnd)
    (replies : Nat → Reply) (l : Link) (subscribers : List Subscriber) :
    (Job.writeBatches columns rows writerEnd replies (.new l subscribers) =
        .ok () (.new l subscribers) ∧
      writeBatches columns rows writerEnd replies l = .ok () l ∧
      Writes columns writerEnd replies (splitRows [] rows).2 0 (splitRows [] rows).1) ∨
    ∃ e l' failed, Job.writeBatches columns rows writerEnd replies (.new l subscribers) =
        .error e { Job.new l' subscribers with failed := failed } ∧
      writeBatches columns rows writerEnd replies l = .error e l' ∧ l'.inTxn = l.inTxn ∧
      (failed = true ↔
        Writes columns writerEnd replies (splitRows [] rows).2 0 (splitRows [] rows).1) := by
  unfold Job.writeBatches writeBatches
  rcases emitRows_ends columns replies writerEnd 0 [] rows l subscribers with
    ⟨n, hjob, hlink, hwrites⟩ | ⟨e, l', failed, hjob, hlink, hinTxn, hfailed⟩
  · rw [bind_of_ok hjob, bind_of_ok hlink, hwrites]
    cases writerEnd with
    | throws e =>
      refine .inr ⟨e, l, false, rfl, rfl, rfl, ⟨fun h => Bool.noConfusion h, fun h => ?_⟩⟩
      exact WriterEnd.noConfusion h.1
    | returns =>
      rcases flush_ends columns (splitRows [] rows).2 (replies n) l subscribers with
        ⟨hjob', hlink', hwide, -⟩ | ⟨e, l', failed, hjob', hlink', hinTxn, hwide, -⟩
      · exact .inl ⟨hjob', hlink', rfl, hwide⟩
      · exact .inr ⟨e, l', failed, hjob', hlink', hinTxn, fun h => ⟨rfl, hwide.1 h⟩,
          fun h => hwide.2 h.2⟩
  · exact .inr ⟨e, l', failed, bind_of_error hjob, bind_of_error hlink, hinTxn, hfailed⟩

/-- A bulk insert from its open transaction on. -/
theorem WorkEnds.of_opened {start : Reply} {rows : List BulkRow} {backend : Backend}
    (hopened : link.inTxn = true ∨ start = .ok)
    (hwork : (Operation.executeBulk start columns rows writerEnd replies).work false
        (.new link subscribers) =
      Job.writeBatches columns rows writerEnd replies (.new ⟨true, backend⟩ subscribers))
    (hrun : (Operation.executeBulk start columns rows writerEnd replies).run false link =
      (tryCatch (writeBatches columns rows writerEnd replies) fun e => do
        ObSession.resetTxnOnError
        throw e : EStateM Failure Link Unit) ⟨true, backend⟩) :
    WorkEnds false (.executeBulk start columns rows writerEnd replies) link subscribers := by
  rcases writeBatches_ends columns rows writerEnd replies ⟨true, backend⟩ subscribers with
    ⟨hjob, hlink, hwrites⟩ | ⟨e, ⟨inTxn, backend'⟩, failed, hjob, hlink, rfl, hfailed⟩
  · exact .returns _ false (hwork.trans hjob) (hrun.trans (tryCatch_of_ok hlink))
      ⟨fun _ _ _ => hwrites, fun _ => rfl⟩
  · refine .throws e _ ⟨false, backend'.rollback⟩ failed (!failed) (hwork.trans hjob) rfl
      (hrun.trans (tryCatch_of_error hlink)) ?_
    rw [Bool.not_eq_false', hfailed]
    exact ⟨fun h _ _ => h, fun h => h rfl hopened⟩

theorem executeBulk_ends (start : Reply) (columns : List String) (rows : List BulkRow)
    (writerEnd : WriterEnd) (replies : Nat → Reply) :
    WorkEnds shutdownFlag (.executeBulk start columns rows writerEnd replies) link subscribers := by
  obtain ⟨inTxn, backend⟩ := link
  cases shutdownFlag with
  | true =>
    cases inTxn with
    | true => exact .throws _ _ _ _ _ rfl rfl rfl ⟨fun _ h => Bool.noConfusion h, fun _ => rfl⟩
    | false => exact .throws _ _ _ _ _ rfl rfl rfl ⟨fun _ h => Bool.noConfusion h, fun _ => rfl⟩
  | false =>
    cases inTxn with
    | true => exact .of_opened (.inl rfl) rfl rfl
    | false =>
      cases start with
      | ok => exact .of_opened (.inr rfl) rfl rfl
      | error code stillOpen =>
        refine .throws _ _ _ _ _ rfl rfl rfl ⟨fun _ _ hopened => ?_, fun _ => rfl⟩
        rcases hopened with h | h
        · exact Bool.noConfusion h
        · exact Reply.noConfusion h

end Bulk

theorem work_ends (shutdownFlag : Bool) (op : Operation) (link : Link)
    (subscribers : List Subscriber) : WorkEnds shutdownFlag op link subscribers := by
  cases op with
  | execute start effect reply => exact execute_ends start effect reply
  | executeBulk start columns rows writerEnd replies =>
    exact executeBulk_ends start columns rows writerEnd replies
  | commit reply => exact commit_ends reply
  | rollback => exact rollback_ends
  | executeNonTx effect reply => exact executeNonTx_ends effect reply

end Work

section Closure

variable {shutdownFlag : Bool} {op : Operation} {link : Link} {subscribers : List Subscriber}

theorem notify_returns {j : Job} (h : ∀ s ∈ subscribers, s = .returns) :
    Job.notify subscribers j = .ok () j := by
  induction subscribers with
  | nil => rfl
  | cons s subscribers ih =>
    obtain ⟨rfl, hrest⟩ := List.forall_mem_cons.mp h
    exact ih hrest

theorem notify_throws (j : Job) (h : ¬∀ s ∈ subscribers, s = .returns) :
    ∃ e, Job.notify subscribers j = .error e j := by
  induction subscribers with
  | nil => exact absurd (by simp) h
  | cons s subscribers ih =>
    cases s with
    | throws e => exact ⟨e, rfl⟩
    | returns =>
      refine ih fun hrest => h (List.forall_mem_cons.mpr ⟨rfl, hrest⟩)

/-- A promise that is not set yet takes the result and calls its callbacks. -/
theorem settle_unset {j : Job} (h : j.promise.isSet = false) (result : Except Failure Unit) :
    ∃ promise, promise.isSet = true ∧ Job.settle result j =
      Job.notify j.promise.callbacks
        { j with promise := promise, settlements := j.settlements + 1 } := by
  obtain ⟨promise, hisSet, hset⟩ : ∃ promise, promise.isSet = true ∧
      j.promise.set result = .ok (j.promise.callbacks, promise) := by
    cases result with
    | ok value =>
      exact ⟨_, rfl, by rw [Future.TSharedState.set, Future.TSharedState.setValue, h]; rfl⟩
    | error e =>
      exact ⟨_, rfl, by rw [Future.TSharedState.set, Future.TSharedState.setException, h]; rfl⟩
  exact ⟨promise, hisSet, by rw [Job.settle, hset]⟩

/-- A promise that is set refuses the result. -/
theorem settle_set {j : Job} (h : j.promise.isSet = true) (result : Except Failure Unit) :
    ∃ e, Job.settle result j = .error e j := by
  obtain ⟨what, hset⟩ : ∃ what, j.promise.set result = .error what := by
    cases result with
    | ok value =>
      exact ⟨_, by rw [Future.TSharedState.set, Future.TSharedState.setValue, h]; rfl⟩
    | error e =>
      exact ⟨_, by rw [Future.TSharedState.set, Future.TSharedState.setException, h]; rfl⟩
  exact ⟨.runtime what, by rw [Job.settle, hset]⟩

/-- The `catch` block does not throw before `SetException` and leaves the promise alone. -/
theorem recover_ok (op : Operation) (j : Job) :
    ∃ j', op.recover j = .ok () j' ∧ j'.promise = j.promise := by
  have hreset : ∃ j', Job.resetTxnOnError j = .ok () j' ∧ j'.promise = j.promise := by
    obtain ⟨⟨inTxn, backend⟩, promise, settlements, failed, undone⟩ := j
    cases inTxn with
    | true => exact ⟨_, rfl, rfl⟩
    | false => exact ⟨_, rfl, rfl⟩
  cases op with
  | execute start effect reply => exact hreset
  | executeBulk start columns rows writerEnd replies => exact hreset
  | commit reply => exact ⟨_, rfl, rfl⟩
  | rollback => exact ⟨_, rfl, rfl⟩
  | executeNonTx effect reply => exact ⟨_, rfl, rfl⟩

/-- Callbacks that return: the closure sets the promise once and leaves the connection as the session's
operation does. -/
theorem closure_returns (h : ∀ s ∈ subscribers, s = .returns) :
    ∃ j, op.closure shutdownFlag (.new link subscribers) = .ok () j ∧ j.settlements = 1 ∧
      j.link = finalLink (op.run shutdownFlag) link ∧
      (j.undone = false ↔ op.KeepsTxn shutdownFlag link.inTxn) := by
  cases work_ends shutdownFlag op link subscribers with
  | returns l undone hwork hrun hkept =>
    obtain ⟨promise, -, hsettle⟩ := @settle_unset { Job.new l subscribers with undone := undone }
      rfl (.ok ())
    refine ⟨_, tryCatch_of_ok ((bind_of_ok hwork).trans (hsettle.trans (notify_returns h))), rfl,
      ?_, hkept⟩
    rw [finalLink, hrun]
    rfl
  | throws e j l failed undone hwork hrecover hrun hkept =>
    obtain ⟨promise, -, hsettle⟩ := @settle_unset
      { Job.new l subscribers with failed := failed, undone := undone } rfl (.error e)
    refine ⟨_, (tryCatch_of_error (bind_of_error hwork)).trans
      ((bind_of_ok hrecover).trans (hsettle.trans (notify_returns h))), rfl, ?_, hkept⟩
    rw [finalLink, hrun]
    rfl

/-- A callback that throws: its exception, or that of the second attempt to set the promise, leaves
the closure. -/
theorem closure_throws (h : ¬∀ s ∈ subscribers, s = .returns) :
    ∃ e j, op.closure shutdownFlag (.new link subscribers) = .error e j := by
  cases work_ends shutdownFlag op link subscribers with
  | returns l undone hwork hrun hkept =>
    obtain ⟨promise, hset, hsettle⟩ := @settle_unset
      { Job.new l subscribers with undone := undone } rfl (.ok ())
    obtain ⟨e, hthrows⟩ := notify_throws ⟨l, promise, 1, false, undone⟩ h
    obtain ⟨j, hrecover, hpromise⟩ := recover_ok op ⟨l, promise, 1, false, undone⟩
    obtain ⟨e', hrefused⟩ := settle_set (j := j) (by rw [hpromise, hset]) (.error e)
    exact ⟨e', j, (tryCatch_of_error ((bind_of_ok hwork).trans
      (hsettle.trans hthrows))).trans ((bind_of_ok hrecover).trans hrefused)⟩
  | throws e j l failed undone hwork hrecover hrun hkept =>
    obtain ⟨promise, -, hsettle⟩ := @settle_unset
      { Job.new l subscribers with failed := failed, undone := undone } rfl (.error e)
    obtain ⟨e', hthrows⟩ := notify_throws ⟨l, promise, 1, failed, undone⟩ h
    exact ⟨e', _, (tryCatch_of_error (bind_of_error hwork)).trans
      ((bind_of_ok hrecover).trans (hsettle.trans hthrows))⟩

end Closure

/-- For every operation, every outcome of its server calls and all callbacks: the closure behaves as it
should if and only if no callback throws and nothing but the server and the shutdown check makes the
operation roll back. -/
theorem closureOk_iff (shutdownFlag : Bool) (op : Operation) (link : Link)
    (subscribers : List Subscriber) :
    ClosureOk shutdownFlag op link subscribers ↔
      (∀ s ∈ subscribers, s = .returns) ∧ op.KeepsTxn shutdownFlag link.inTxn := by
  by_cases h : ∀ s ∈ subscribers, s = .returns
  · obtain ⟨j, hj, honce, -, hkept⟩ := @closure_returns shutdownFlag op link subscribers h
    have hfinal : finalJob (op.closure shutdownFlag) (.new link subscribers) = j := by
      rw [finalJob, hj]
    constructor
    · intro hok
      refine ⟨h, hkept.1 ?_⟩
      rw [← hfinal]
      exact hok.kept
    · rintro ⟨-, hkeeps⟩
      refine ⟨by rw [hfinal, honce], ⟨j, hj⟩, ?_⟩
      rw [hfinal]
      exact hkept.2 hkeeps
  · refine ⟨fun hok => ?_, fun hcondition => absurd hcondition.1 h⟩
    obtain ⟨j, hj⟩ := hok.caught
    obtain ⟨e, j', hj'⟩ := @closure_throws shutdownFlag op link subscribers h
    rw [hj] at hj'
    cases hj'

/-- A statement succeeds on the server, and the ready queue of the coroutine that waits for it is
full: the transaction is rolled back and an exception leaves the closure. -/
theorem execute_undone_by_full_queue :
    let op := Operation.execute .ok .none .ok
    let j := finalJob (op.closure false) (.new ⟨false, .connected⟩ [taskReadyThreadSafe true])
    op.KeepsTxn false false ∧ j.failed = false ∧ j.undone = true ∧
      j.link = ⟨false, Backend.connected.startTransaction.rollback⟩ ∧
      j.promise.result = some (.ok ()) ∧
      ¬ClosureOk false op ⟨false, .connected⟩ [taskReadyThreadSafe true] := by
  refine ⟨trivial, rfl, rfl, rfl, rfl, fun h => ?_⟩
  obtain ⟨j, hj⟩ := h.caught
  cases hj

end Tpcc.Db
