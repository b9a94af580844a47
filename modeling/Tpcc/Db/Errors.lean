import Mathlib.Data.List.Basic

/-! The error classification of `db/errors.h` and the exceptions that a transaction can end with. -/

namespace Tpcc.Db

inductive DbErrorKind
  | other
  | deadlock
  | lockWaitTimeout
  | serializationFailure
  | transactionInvalidated
  | connectionLost
  | shutdown
  deriving DecidableEq

/-- `ClassifyDbError`. -/
def classifyDbError (nativeCode : Int) : DbErrorKind :=
  if nativeCode = 1213 then .deadlock
  else if nativeCode = 1205 then .lockWaitTimeout
  else if nativeCode = 6235 then .serializationFailure
  else if nativeCode = 6002 then .transactionInvalidated
  else if nativeCode = 1317 then .shutdown
  else if nativeCode = 2006 ∨ nativeCode = 2013 then .connectionLost
  else .other

/-- `IsRetryableTxError`. -/
def isRetryableTxError : DbErrorKind → Bool
  | .deadlock | .lockWaitTimeout | .serializationFailure | .transactionInvalidated => true
  | .other | .connectionLost | .shutdown => false

/-- An exception in flight: a `DbError` with its native code, `TUserAbortedException`, or another
`std::exception` with its text. -/
inductive Failure
  | db (code : Int)
  | userAborted
  | runtime (what : String)
  deriving DecidableEq

end Tpcc.Db
