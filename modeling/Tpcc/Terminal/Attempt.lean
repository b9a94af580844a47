import Tpcc.Db.Errors

/-! What `TTerminal::Run` makes of the end of an attempt. -/

namespace Tpcc.Terminal

open Db

/-- How an attempt ends: with the transaction's result or with an exception. -/
inductive Outcome
  | result (value : Bool)
  | threw (e : Failure)
  deriving DecidableEq

/-- The counters of `TTransactionStats`. -/
inductive Counter
  | ok
  | failed
  | userAborted
  deriving DecidableEq

/-- `MaxRetries`. -/
def maxRetries : Nat := 3

/-- The counter that an attempt increments, whether the loop goes on to the next attempt, and the
fatal flag. -/
structure Verdict where
  counter : Option Counter
  shouldRetry : Bool
  fatal : Bool
  deriving DecidableEq

/-- The body of the `try` block after the transaction, and the handlers behind it. -/
def verdict (stopRequested : Bool) (attempt : Nat) : Outcome → Verdict
  | .result true => ⟨some .ok, false, false⟩
  | .result false => ⟨some .failed, false, false⟩
  | .threw .userAborted => ⟨some .userAborted, false, false⟩
  | .threw (.db code) =>
    if stopRequested ∨ classifyDbError code = .shutdown then ⟨none, false, false⟩
    else if isRetryableTxError (classifyDbError code) ∧ attempt < maxRetries then
      ⟨none, true, false⟩
    else if isRetryableTxError (classifyDbError code) then ⟨some .failed, false, false⟩
    else ⟨none, false, true⟩
  | .threw (.runtime _) =>
    if stopRequested then ⟨none, false, false⟩ else ⟨none, false, true⟩

end Tpcc.Terminal
