import Tpcc.Db.Session
import Tpcc.Lib.Transition

/-! `ObConnectionPool` with the sessions that its users hold.  The users call the pool and their
sessions in any order; the shutdown flag is raised at any moment. -/

namespace Tpcc.Db

open Lib

/-- What a user of the pool holds: nothing, a session with its connection, or a connection on its
way back inside `ReleaseSession`. -/
inductive Holder (κ : Type)
  | none
  | session (conn : κ) (inTxn : Bool)
  | releasing (conn : κ)
  deriving DecidableEq

/-- The connection that a user holds. -/
def Holder.conn? {κ : Type} : Holder κ → Option κ
  | .none => .none
  | .session conn _ => some conn
  | .releasing conn => some conn

/-- The pool's containers and flag, its users and the server side of its connections. -/
structure ObConnectionPool (κ ι : Type) where
  free : List κ
  checkedOut : List κ
  shutdownFlag : Bool
  holder : ι → Holder κ
  backend : κ → Backend

/-- The operations of a session, with the server's answers. -/
inductive Operation
  | execute (start : Reply) (effect : TxnEffect) (reply : Reply)
  | executeBulk (start : Reply) (columns : List String) (rows : List ObSession.BulkRow)
      (writerEnd : ObSession.WriterEnd) (replies : Nat → Reply)
  | commit (reply : Reply)
  | rollback
  | executeNonTx (effect : TxnEffect) (reply : Reply)

/-- The program of an operation. -/
def Operation.run (shutdownFlag : Bool) : Operation → EStateM Failure Link Unit
  | .execute start effect reply => ObSession.execute shutdownFlag start effect reply
  | .executeBulk start columns rows writerEnd replies =>
    ObSession.executeBulk shutdownFlag start columns rows writerEnd replies
  | .commit reply => ObSession.commit shutdownFlag reply
  | .rollback => ObSession.rollback
  | .executeNonTx effect reply => ObSession.executeNonTx effect reply

/-- The state in which a program ends, whether it returns or throws. -/
def finalLink (m : EStateM Failure Link Unit) (l : Link) : Link :=
  match m l with
  | .ok _ l' => l'
  | .error _ l' => l'

/-- What a user does next, or `CancelAll` raising the flag. -/
inductive Action (ι : Type)
  | acquireSession (i : ι)
  | operate (i : ι) (op : Operation)
  | releaseConnection (i : ι)
  | pushFree (i : ι)
  | destroySession (i : ι)
  | cancelAll

namespace ObConnectionPool

variable {κ ι : Type} [DecidableEq κ] [DecidableEq ι]

def setHolder (p : ObConnectionPool κ ι) (i : ι) (h : Holder κ) : ObConnectionPool κ ι :=
  { p with holder := Function.update p.holder i h }

def setBackend (p : ObConnectionPool κ ι) (c : κ) (b : Backend) : ObConnectionPool κ ι :=
  { p with backend := Function.update p.backend c b }

/-- One step of the pool.  An `AcquireSession` that finds no free connection waits. -/
def step (p : ObConnectionPool κ ι) : Action ι → Option (ObConnectionPool κ ι)
  | .acquireSession i =>
    match p.holder i, p.free with
    | .none, c :: rest =>
      some { p with
        free := rest
        checkedOut := p.checkedOut ++ [c]
        holder := Function.update p.holder i (.session c false) }
    | _, _ => none
  | .operate i op =>
    match p.holder i with
    | .session c inTxn =>
      let l := finalLink (op.run p.shutdownFlag) ⟨inTxn, p.backend c⟩
      some ((p.setHolder i (.session c l.inTxn)).setBackend c l.backend)
    | _ => none
  | .releaseConnection i =>
    match p.holder i with
    | .session c inTxn =>
      let l := finalLink ObSession.releaseConnection ⟨inTxn, p.backend c⟩
      some ((p.setHolder i (.releasing c)).setBackend c l.backend)
    | _ => none
  | .pushFree i =>
    match p.holder i with
    | .releasing c =>
      some { p.setHolder i .none with
        free := p.free ++ [c]
        checkedOut := p.checkedOut.filter (· ≠ c) }
    | _ => none
  | .destroySession i =>
    match p.holder i with
    | .session c inTxn =>
      let l := finalLink ObSession.releaseConnection ⟨inTxn, p.backend c⟩
      some ((p.setHolder i .none).setBackend c l.backend.rollback)
    | _ => none
  | .cancelAll => some { p with shutdownFlag := true }

/-- A new pool over the given connections. -/
def new (conns : List κ) : ObConnectionPool κ ι where
  free := conns
  checkedOut := []
  shutdownFlag := false
  holder _ := .none
  backend _ := .connected

/-- The runs of a pool whose connections are distinct objects. -/
def lts (κ ι : Type) [DecidableEq κ] [DecidableEq ι] : Lts (ObConnectionPool κ ι) (Action ι) :=
  .ofAction (fun p => ∃ conns : List κ, conns.Nodup ∧ p = new conns) step

end ObConnectionPool

end Tpcc.Db
