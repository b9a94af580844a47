import Tpcc.Transaction.Tasks

/-! Transactions that run one after the other.  Requests can fail at any point; what a transaction
has not committed is lost. -/

namespace Tpcc.Transaction

open Lib Store

/-- What comes from outside: which requests fail, by their number, whether a `COMMIT` that fails has
taken effect, and the time of each request. -/
structure Env where
  fault : Nat → Bool
  commitsAnyway : Bool
  now : Nat → Nat

/-- The state of a transaction that runs alone: what it works on, and what is committed. -/
structure Run where
  requests : Nat
  working : Database
  durable : Database
  committed : Bool
  stopRequested : Bool

def Run.start (db : Database) : Run where
  requests := 0
  working := db
  durable := db
  committed := false
  stopRequested := false

/-- The state after a `COMMIT`. -/
def Run.commit (s : Run) : Run :=
  { s with requests := s.requests + 1, durable := s.working, committed := true }

/-- Runs a transaction.  A request that fails throws, which ends it. -/
def exec (env : Env) : Task Bool → Run → Run
  | .pure _, s => s
  | .throw _, s => s
  | .request (.query q) next, s =>
    if env.fault s.requests then s
    else exec env (next (q.eval s.working)) { s with requests := s.requests + 1 }
  | .request (.modify m) next, s =>
    if env.fault s.requests then s
    else match m.apply (env.now s.requests) s.working with
      | none => s
      | some db => exec env (next ()) { s with requests := s.requests + 1, working := db }
  | .request .commit next, s =>
    if env.fault s.requests then
      if env.commitsAnyway then s.commit else s
    else exec env (next ()) s.commit
  | .request .rollback next, s =>
    if env.fault s.requests then s
    else exec env (next ()) { s with requests := s.requests + 1, working := s.durable }
  | .request .requestStopWithError next, s => exec env (next ()) { s with stopRequested := true }

/-- One call of a transaction by a terminal. -/
structure Call where
  context : TTransactionContext
  type : ETransactionType
  draws : Draws context
  env : Env

def Call.run (call : Call) (db : Database) : Run :=
  exec call.env (call.type.taskFunc call.draws) (.start db)

/-- The tables after calls in a row. -/
def runCalls (calls : List Call) (db : Database) : Database :=
  calls.foldl (fun db call => (call.run db).durable) db

end Tpcc.Transaction
