import Tpcc.Db.Pool
import Tpcc.Terminal.Attempt
import Tpcc.Transaction.Shape

/-! One attempt of a terminal: the transaction over its session, any answers of the server, and the
guard that gives the session back. -/

namespace Tpcc.Terminal

open Lib Db Transaction

/-- What a terminal meets at each moment: whether the stop has been requested and the pool shut down
by others, and the server's answers.  A `COMMIT` that reports an error has not committed and leaves
no transaction open.  `result` is what the rows of a `SELECT` are, or the exception of reading them. -/
structure Server where
  stop : Nat → Bool
  shutdown : Nat → Bool
  start : Nat → Reply
  reply : Nat → Reply
  commitError : Nat → Option Int
  result : (n : Nat) → (q : Query) → Except String q.Result
  shutdown_mono : ∀ m n, m ≤ n → shutdown m = true → shutdown n = true

/-- The terminal's side of an attempt. -/
structure Local where
  time : Nat
  stopped : Bool
  link : Link

/-- An operation of the session, which takes time. -/
def onSession (m : EStateM Failure Link Unit) : EStateM Failure Local Unit := fun l =>
  match m l.link with
  | .ok _ k => .ok () ⟨l.time + 1, l.stopped, k⟩
  | .error e k => .error e ⟨l.time + 1, l.stopped, k⟩

namespace Server

variable (srv : Server)

/-- `ExecuteQuery` or `ExecuteModify` at time `n`. -/
def statement (n : Nat) : EStateM Failure Link Unit :=
  ObSession.execute (srv.shutdown n) (srv.start n) .none (srv.reply n)

/-- The answer to a `COMMIT` at time `n`. -/
def commitReply (n : Nat) : Reply :=
  match srv.commitError n with
  | none => .ok
  | some code => .error code false

/-- The requests of a transaction. -/
def handle : (r : Request) → EStateM Failure Local r.Reply
  | .query q => fun l =>
    match onSession (srv.statement l.time) l with
    | .ok _ l' =>
      match srv.result l.time q with
      | .ok a => .ok a l'
      | .error text => .error (.runtime text) l'
    | .error e l' => .error e l'
  | .modify _ => fun l => onSession (srv.statement l.time) l
  | .commit => fun l =>
    onSession (ObSession.commit (srv.shutdown l.time) (srv.commitReply l.time)) l
  | .rollback => onSession ObSession.rollback
  | .requestStopWithError => fun l => .ok () { l with stopped := true }

end Server

/-- How an attempt ends. -/
structure AttemptEnd where
  outcome : Outcome
  time : Nat
  stopped : Bool
  backend : Backend

/-- The destructor of the guard. -/
def AttemptEnd.released (outcome : Outcome) (l : Local) : AttemptEnd :=
  ⟨outcome, l.time, l.stopped, (finalLink ObSession.releaseConnection l.link).backend⟩

/-- An attempt on a connection with the given server side. -/
def attempt (srv : Server) (task : Transaction.Task Bool) (time : Nat) (stopped : Bool) (backend : Backend) :
    AttemptEnd :=
  match task.run srv.handle ⟨time, stopped, ⟨false, backend⟩⟩ with
  | .ok value l => .released (.result value) l
  | .error e l => .released (.threw e) l

section Session

variable {base : Backend} {shutdown opened : Bool}

/-- The session after some statements, or before the first one: nothing is committed yet, and without
a shutdown a transaction is open exactly when there was a statement. -/
structure Working (base : Backend) (shutdown opened : Bool) (k : Link) : Prop where
  inTxn : k.inTxn = opened
  isOpen : opened = true → k.backend.txnOpen = true
  closed : opened = false → shutdown = false → k.backend.txnOpen = false
  commits : k.backend.commits = base.commits
  implicitCommits : k.backend.implicitCommits = base.implicitCommits

/-- The session after the transaction, with the number of transactions committed. -/
structure Ended (base : Backend) (shutdown : Bool) (committed : Nat) (k : Link) : Prop where
  idle : k.inTxn = true ∨ (shutdown = false → k.backend.txnOpen = false)
  commits : k.backend.commits = base.commits + committed
  implicitCommits : k.backend.implicitCommits = base.implicitCommits

theorem Working.later {k : Link} {shutdown' : Bool} (h : Working base shutdown opened k)
    (hshutdown : shutdown = true → shutdown' = true) : Working base shutdown' opened k where
  inTxn := h.inTxn
  isOpen := h.isOpen
  closed := by
    intro hopened hlater
    refine h.closed hopened ?_
    by_contra hnow
    rw [hshutdown (by simpa using hnow)] at hlater
    cases hlater
  commits := h.commits
  implicitCommits := h.implicitCommits

theorem Ended.later {k : Link} {shutdown' : Bool} {committed : Nat}
    (h : Ended base shutdown committed k) (hshutdown : shutdown = true → shutdown' = true) :
    Ended base shutdown' committed k where
  idle := by
    refine h.idle.imp (fun hin => hin) fun hidle hlater => hidle ?_
    by_contra hnow
    rw [hshutdown (by simpa using hnow)] at hlater
    cases hlater
  commits := h.commits
  implicitCommits := h.implicitCommits

/-- A session that gives up before it commits. -/
theorem Working.ended {k : Link} (h : Working base shutdown opened k) :
    Ended base shutdown 0 k where
  idle := by
    cases hopened : opened with
    | true => exact .inl (h.inTxn.trans hopened)
    | false => exact .inr (h.closed hopened)
  commits := h.commits
  implicitCommits := h.implicitCommits

theorem execute_spec (start reply : Reply) :
    Triple (Working base shutdown opened) (ObSession.execute shutdown start .none reply)
      (fun _ => Working base shutdown true) (fun _ => Ended base shutdown 0) := by
  rintro ⟨inTxn, b⟩ h
  obtain rfl : inTxn = opened := h.inTxn
  have hcommits : b.commits = base.commits := h.commits
  have himplicit : b.implicitCommits = base.implicitCommits := h.implicitCommits
  cases shutdown with
  | true =>
    cases inTxn with
    | true => exact ⟨.inr fun _ => rfl, hcommits, himplicit⟩
    | false => exact ⟨.inr nofun, hcommits, himplicit⟩
  | false =>
    cases inTxn with
    | true =>
      have hopen : b.txnOpen = true := h.isOpen rfl
      cases reply with
      | ok => exact ⟨rfl, fun _ => hopen, nofun, hcommits, himplicit⟩
      | error code stillOpen => exact ⟨.inr fun _ => rfl, hcommits, himplicit⟩
    | false =>
      have hclosed : b.txnOpen = false := h.closed rfl rfl
      cases start with
      | ok =>
        have hstart : b.startTransaction = { b with txnOpen := true } := by
          simp [Backend.startTransaction, hclosed]
        cases reply with
        | ok =>
          refine ⟨rfl, fun _ => rfl, nofun, hcommits, ?_⟩
          exact (congrArg Backend.implicitCommits hstart).trans himplicit
        | error code stillOpen =>
          refine ⟨.inr fun _ => rfl, hcommits, ?_⟩
          exact (congrArg Backend.implicitCommits hstart).trans himplicit
      | error code stillOpen =>
        refine ⟨.inr fun _ => ?_, hcommits, himplicit⟩
        exact congrArg (· && stillOpen) hclosed

theorem commit_spec {reply : Reply} (hreply : ∀ code, reply ≠ .error code true) :
    Triple (Working base shutdown true) (ObSession.commit shutdown reply)
      (fun _ => Ended base shutdown 1) (fun _ => Ended base shutdown 0) := by
  rintro ⟨inTxn, b⟩ h
  obtain rfl : inTxn = true := h.inTxn
  have hopen : b.txnOpen = true := h.isOpen rfl
  have hcommits : b.commits = base.commits := h.commits
  have himplicit : b.implicitCommits = base.implicitCommits := h.implicitCommits
  cases shutdown with
  | true => exact ⟨.inr nofun, hcommits, himplicit⟩
  | false =>
    cases reply with
    | ok =>
      refine ⟨.inr fun _ => rfl, ?_, himplicit⟩
      change (if b.txnOpen then b.commits + 1 else b.commits) = base.commits + 1
      rw [hopen, if_pos rfl, hcommits]
    | error code stillOpen =>
      cases stillOpen with
      | true => exact absurd rfl (hreply code)
      | false => exact ⟨.inr fun _ => Bool.and_false _, hcommits, himplicit⟩

theorem rollback_spec :
    Triple (Working base shutdown opened) ObSession.rollback
      (fun _ => Ended base shutdown 0) (fun _ => Ended base shutdown 0) := by
  rintro ⟨inTxn, b⟩ h
  obtain rfl : inTxn = opened := h.inTxn
  cases inTxn with
  | true => exact ⟨.inr fun _ => rfl, h.commits, h.implicitCommits⟩
  | false => exact ⟨.inr (h.closed rfl), h.commits, h.implicitCommits⟩

end Session

section Run

variable {srv : Server} {base : Backend}

/-- The attempt is at work, at the time that it has reached. -/
def AtWork (srv : Server) (base : Backend) (opened : Bool) (l : Local) : Prop :=
  Working base (srv.shutdown l.time) opened l.link

/-- The transaction is over, at the time that the attempt has reached. -/
def IsOver (srv : Server) (base : Backend) (committed : Nat) (l : Local) : Prop :=
  Ended base (srv.shutdown l.time) committed l.link

theorem onSession_spec {P Q : Local → Prop} {E : Local → Prop} {m : Nat → EStateM Failure Link Unit}
    (h : ∀ l, P l → match m l.time l.link with
      | .ok _ k => Q ⟨l.time + 1, l.stopped, k⟩
      | .error _ k => E ⟨l.time + 1, l.stopped, k⟩) :
    Triple P (fun l => onSession (m l.time) l) (fun _ => Q) (fun _ => E) := by
  intro l hl
  have hm := h l hl
  cases hrun : m l.time l.link with
  | ok a k =>
    rw [hrun] at hm
    simpa only [onSession, hrun] using hm
  | error e k =>
    rw [hrun] at hm
    simpa only [onSession, hrun] using hm

/-- The next moment of the shutdown flag. -/
theorem Server.shutdown_succ (srv : Server) (n : Nat) (h : srv.shutdown n = true) :
    srv.shutdown (n + 1) = true := srv.shutdown_mono n (n + 1) (Nat.le_succ n) h

theorem statement_spec (srv : Server) (base : Backend) (opened : Bool) :
    Triple (AtWork srv base opened) (fun l => onSession (srv.statement l.time) l)
      (fun _ => AtWork srv base true) (fun _ => IsOver srv base 0) := by
  refine onSession_spec fun l hl => ?_
  have hspec := execute_spec (srv.start l.time) (srv.reply l.time) l.link hl
  unfold Server.statement
  split at hspec
  · next hrun =>
    rw [hrun]
    exact hspec.later (srv.shutdown_succ l.time)
  · next hrun =>
    rw [hrun]
    exact hspec.later (srv.shutdown_succ l.time)

theorem handle_query_spec (opened : Bool) (q : Query) :
    Triple (AtWork srv base opened) (srv.handle (.query q)) (fun _ => AtWork srv base true)
      (fun _ => IsOver srv base 0) := by
  intro l hl
  have hspec := statement_spec srv base opened l hl
  simp only [Server.handle]
  split at hspec
  · next a l' hrun =>
    rw [show onSession (srv.statement l.time) l = .ok a l' from hrun]
    dsimp only
    cases srv.result l.time q with
    | ok a => exact hspec
    | error text => exact hspec.ended
  · next e l' hrun =>
    rw [show onSession (srv.statement l.time) l = .error e l' from hrun]
    exact hspec

theorem handle_commit_spec :
    Triple (AtWork srv base true) (srv.handle .commit) (fun _ => IsOver srv base 1)
      (fun _ => IsOver srv base 0) := by
  refine onSession_spec
    (m := fun n => ObSession.commit (srv.shutdown n) (srv.commitReply n)) fun l hl => ?_
  have hreply : ∀ code, srv.commitReply l.time ≠ .error code true := by
    intro code
    unfold Server.commitReply
    split <;> simp
  have hspec := commit_spec hreply l.link hl
  split at hspec
  · next hrun =>
    rw [hrun]
    exact hspec.later (srv.shutdown_succ l.time)
  · next hrun =>
    rw [hrun]
    exact hspec.later (srv.shutdown_succ l.time)

theorem handle_rollback_spec (opened : Bool) :
    Triple (AtWork srv base opened) (srv.handle .rollback) (fun _ => IsOver srv base 0)
      (fun _ => IsOver srv base 0) := by
  refine onSession_spec (m := fun _ => ObSession.rollback) fun l hl => ?_
  have hspec := rollback_spec l.link hl
  split at hspec
  · next hrun =>
    rw [hrun]
    exact hspec.later (srv.shutdown_succ l.time)
  · next hrun =>
    rw [hrun]
    exact hspec.later (srv.shutdown_succ l.time)

/-- A transaction commits once when it returns `true`, and not at all otherwise. -/
theorem run_spec (task : Transaction.Task Bool) {opened : Bool} (hclose : Closes opened task) :
    Triple (AtWork srv base opened) (task.run srv.handle)
      (fun value => IsOver srv base (if value then 1 else 0)) (fun _ => IsOver srv base 0) := by
  induction task generalizing opened with
  | pure value =>
    obtain rfl : value = false := hclose
    exact .of_pure fun l hl => hl.ended
  | throw e => exact .of_throw fun l hl => hl.ended
  | request r next ih =>
    cases r with
    | query q => exact .of_bind (handle_query_spec opened q) fun a => ih a (hclose a)
    | modify m => exact .of_bind (statement_spec srv base opened) fun _ => ih () hclose
    | commit =>
      obtain ⟨rfl, hnext⟩ := hclose
      refine .of_bind handle_commit_spec fun a => ?_
      rw [show next a = .pure true from hnext]
      exact .of_pure fun l hl => hl
    | rollback =>
      obtain ⟨e, hnext⟩ := hclose
      refine .of_bind (handle_rollback_spec opened) fun a => ?_
      rw [show next a = .throw e from hnext]
      exact .of_throw fun l hl => hl
    | requestStopWithError =>
      refine .of_bind (Q := fun _ => AtWork srv base opened) (fun l hl => hl) fun a => ?_
      exact ih a hclose

/-- The server side of a connection that no session has open transactions on; after a shutdown it
does not matter. -/
def Idle (shutdown : Bool) (b : Backend) : Prop := shutdown = false → b.txnOpen = false

/-- What an attempt leaves behind. -/
structure AttemptSpec (srv : Server) (base : Backend) (a : AttemptEnd) : Prop where
  idle : Idle (srv.shutdown a.time) a.backend
  commits : a.backend.commits = base.commits + if a.outcome = .result true then 1 else 0
  implicitCommits : a.backend.implicitCommits = base.implicitCommits

theorem released_spec {outcome : Outcome} {l : Local} {committed : Nat}
    (h : IsOver srv base committed l)
    (houtcome : committed = if outcome = .result true then 1 else 0) :
    AttemptSpec srv base (.released outcome l) := by
  obtain ⟨time, stopped, inTxn, b⟩ := l
  cases inTxn with
  | true => exact ⟨fun _ => rfl, houtcome ▸ h.commits, h.implicitCommits⟩
  | false =>
    have hidle : Idle (srv.shutdown time) b := h.idle.resolve_left nofun
    exact ⟨hidle, houtcome ▸ h.commits, h.implicitCommits⟩

theorem attempt_spec {task : Transaction.Task Bool} (hclose : Closes false task) {time : Nat}
    (stopped : Bool) (hidle : Idle (srv.shutdown time) base) :
    AttemptSpec srv base (attempt srv task time stopped base) := by
  have hwork : AtWork srv base false ⟨time, stopped, ⟨false, base⟩⟩ :=
    ⟨rfl, nofun, fun _ => hidle, rfl, rfl⟩
  have hrun := run_spec task hclose _ hwork
  unfold attempt
  split at hrun
  · next value l heq =>
    rw [heq]
    refine released_spec hrun ?_
    cases value <;> rfl
  · next e l heq =>
    rw [heq]
    exact released_spec hrun rfl

end Run

/-- The connections that the pool hands out: fresh ones, and those that an attempt of any terminal has
given back, by the time at which the shutdown flag is as stated. -/
inductive Pooled : Bool → Backend → Prop
  | connected (shutdown : Bool) : Pooled shutdown .connected
  | released {context : TTransactionContext} (srv : Server) (type : ETransactionType)
      (draws : Draws context) (time : Nat) (stopped : Bool) (b : Backend)
      (h : Pooled (srv.shutdown time) b) :
      Pooled (srv.shutdown (attempt srv (type.taskFunc draws) time stopped b).time)
        (attempt srv (type.taskFunc draws) time stopped b).backend
  | shutDown (b : Backend) (h : Pooled false b) : Pooled true b

theorem Pooled.idle {shutdown : Bool} {b : Backend} (h : Pooled shutdown b) :
    Idle shutdown b := by
  induction h with
  | connected shutdown => exact fun _ => rfl
  | released srv type draws time stopped b _ ih =>
    exact (attempt_spec (taskFunc_closes draws type) stopped ih).idle
  | shutDown b _ _ => exact nofun

end Tpcc.Terminal
