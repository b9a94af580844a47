import Tpcc.Db.Errors
import Tpcc.Lib.Triple

/-! `ObSession` over the server side of its connection.  An operation runs on an I/O thread as a
whole; it reads the shutdown flag once. -/

namespace Tpcc.Db

open Lib

/-- What the server keeps for a connection.  `implicitCommits` counts the transactions that a later
`START TRANSACTION` of the session committed. -/
structure Backend where
  txnOpen : Bool
  commits : Nat
  implicitCommits : Nat
  deriving DecidableEq

/-- The server's answer to a call: success, or an error with its native code.  After an error a
transaction that was open may still be open. -/
inductive Reply
  | ok
  | error (code : Int) (stillOpen : Bool)
  deriving DecidableEq

/-- What a statement's own text does to the transaction: an ordinary statement leaves it, some
statements commit it, and some begin one. -/
inductive TxnEffect
  | none
  | commits
  | begins
  deriving DecidableEq

namespace Backend

/-- A connection right after `ObConnection::Connect`. -/
def connected : Backend := ⟨false, 0, 0⟩

/-- A call that failed opens nothing. -/
def failed (b : Backend) (stillOpen : Bool) : Backend :=
  { b with txnOpen := b.txnOpen && stillOpen }

def startTransaction (b : Backend) : Backend :=
  { b with
    txnOpen := true
    implicitCommits := if b.txnOpen then b.implicitCommits + 1 else b.implicitCommits }

def commit (b : Backend) : Backend :=
  { b with txnOpen := false, commits := if b.txnOpen then b.commits + 1 else b.commits }

def rollback (b : Backend) : Backend := { b with txnOpen := false }

def statement (b : Backend) : TxnEffect → Backend
  | .none => b
  | .commits => b.commit
  | .begins => { b.commit with txnOpen := true }

end Backend

/-- A session's flag and the server side of its connection. -/
structure Link where
  inTxn : Bool
  backend : Backend
  deriving DecidableEq

/-- A call to the server, with what it does when it succeeds. -/
def call (effect : Backend → Backend) : Reply → EStateM Failure Link Unit
  | .ok => modify fun l => { l with backend := effect l.backend }
  | .error code stillOpen => do
    modify fun l => { l with backend := l.backend.failed stillOpen }
    throw (.db code)

/-- `ObConnection::Rollback`, which the server carries out. -/
def rollbackCall : EStateM Failure Link Unit :=
  modify fun l => { l with backend := l.backend.rollback }

def setInTxn (value : Bool) : EStateM Failure Link Unit :=
  modify fun l => { l with inTxn := value }

namespace ObSession

/-- `CheckShutdown`. -/
def checkShutdown (shutdownFlag : Bool) : EStateM Failure Link Unit :=
  if shutdownFlag then throw (.runtime "session shutdown") else pure ()

/-- `EnsureTxn`. -/
def ensureTxn (start : Reply) : EStateM Failure Link Unit := do
  let l ← get
  if !l.inTxn then
    call Backend.startTransaction start
    setInTxn true

/-- `if (inTxn_) { conn_->Rollback(); inTxn_ = false; }`, which four functions share.  The rollback
does not throw: `ObConnection::Rollback` ignores the server's answer. -/
def rollbackIfInTxn : EStateM Failure Link Unit := do
  let l ← get
  if l.inTxn then
    rollbackCall
    setInTxn false

/-- `ResetTxnOnError`. -/
def resetTxnOnError : EStateM Failure Link Unit := rollbackIfInTxn

/-- `ExecuteQuery` and `ExecuteModify`, by query id or by text. -/
def execute (shutdownFlag : Bool) (start : Reply) (effect : TxnEffect) (reply : Reply) :
    EStateM Failure Link Unit := do
  try
    checkShutdown shutdownFlag
    ensureTxn start
    call (·.statement effect) reply
  catch e =>
    resetTxnOnError
    throw e

/-- A row of a bulk insert; a missing cell is `NULL`. -/
abbrev BulkRow := List (Option String)

/-- How the writer of a bulk insert ends after its last row. -/
inductive WriterEnd
  | returns
  | throws (e : Failure)
  deriving DecidableEq

/-- `kBulkBatchRows`. -/
def bulkBatchRows : Nat := 200

/-- The `flush` of `ExecuteBulk`: one multi-row `INSERT`, built before it is sent. -/
def flush (columns : List String) (batch : List BulkRow) (reply : Reply) :
    EStateM Failure Link Unit :=
  if batch.isEmpty then pure ()
  else if batch.all fun row => row.length == columns.length then
    call (·.statement .none) reply
  else
    throw (.runtime "Bulk row column count mismatch")

/-- The writer's rows: `replies` answers the flushes in turn, and the result is the last batch with
the number of flushes before it. -/
def emitRows (columns : List String) (replies : Nat → Reply) :
    Nat → List BulkRow → List BulkRow → EStateM Failure Link (Nat × List BulkRow)
  | flushed, batch, [] => pure (flushed, batch)
  | flushed, batch, row :: rows =>
    if (batch ++ [row]).length ≥ bulkBatchRows then do
      flush columns (batch ++ [row]) (replies flushed)
      emitRows columns replies (flushed + 1) [] rows
    else
      emitRows columns replies flushed (batch ++ [row]) rows

/-- The writer's last action. -/
def WriterEnd.run : WriterEnd → EStateM Failure Link Unit
  | .returns => pure ()
  | .throws e => throw e

/-- `ExecuteBulk`. -/
def executeBulk (shutdownFlag : Bool) (start : Reply) (columns : List String)
    (rows : List BulkRow) (writerEnd : WriterEnd) (replies : Nat → Reply) :
    EStateM Failure Link Unit := do
  try
    checkShutdown shutdownFlag
    ensureTxn start
    let (flushed, batch) ← emitRows columns replies 0 [] rows
    writerEnd.run
    flush columns batch (replies flushed)
  catch e =>
    resetTxnOnError
    throw e

/-- `Commit`. -/
def commit (shutdownFlag : Bool) (reply : Reply) : EStateM Failure Link Unit := do
  try
    checkShutdown shutdownFlag
    let l ← get
    if l.inTxn then
      call Backend.commit reply
      setInTxn false
  catch e =>
    setInTxn false
    throw e

/-- `Rollback`. -/
def rollback : EStateM Failure Link Unit := do
  try
    rollbackIfInTxn
  catch e =>
    setInTxn false
    throw e

/-- `ExecuteNonTx`. -/
def executeNonTx (effect : TxnEffect) (reply : Reply) : EStateM Failure Link Unit := do
  rollbackIfInTxn
  call (·.statement effect) reply

/-- The rollback of `ReleaseConnection` and of `~ObSession`. -/
def releaseConnection : EStateM Failure Link Unit := rollbackIfInTxn

end ObSession

end Tpcc.Db
