import Tpcc.Isolation.Delivery
import Tpcc.Isolation.NewOrder
import Tpcc.Isolation.Payment
import Tpcc.Transaction.Exec
import Tpcc.Transaction.Shape

/-! Every transaction that commits does some operations, and runs of them one after the other keep
the invariant of the tables. -/

namespace Tpcc.Isolation

open Lib Store Transaction

section Tasks

variable {context : TTransactionContext}

/-- The commit of a transaction that has changed nothing. -/
theorem Safe.commit_nothing {t : Progress} {db : Database} {f : Unit → Transaction.Task Bool}
    (hstart : t.statements = []) :
    Safe (fun statements db view => ∃ ops, Commits statements db view ops) (fun _ _ => True)
      (Transaction.commit >>= f) t db := by
  refine .commit fun db' view _ hview => ⟨[], ?_⟩
  rw [hstart] at hview ⊢
  exact ⟨trivial, (Option.some.inj hview).symm, rfl, rfl, rfl, rfl⟩

theorem getOrderStatusTask_safe (draws : OrderStatusDraws) (db : Database) :
    Safe (fun statements db view => ∃ ops, Commits statements db view ops) (fun _ _ => True)
      (getOrderStatusTask context draws) .start db := by
  refine .selectCustomer fun selected t db' hstart _ => ?_
  cases selected with
  | none => exact .stop fun _ _ => trivial
  | some customer =>
    refine .select_plain rfl fun _ orderResult _ _ => ?_
    cases orderResult with
    | none => exact .commit_nothing hstart
    | some order => exact .select_plain rfl fun _ _ _ _ => .commit_nothing hstart

theorem getStockLevelTask_safe (draws : StockLevelDraws) (db : Database) :
    Safe (fun statements db view => ∃ ops, Commits statements db view ops) (fun _ _ => True)
      (getStockLevelTask context draws) .start db := by
  refine .select_plain rfl fun _ distResult _ _ => ?_
  cases distResult with
  | none => exact .stop fun _ _ => trivial
  | some district => exact .select_plain rfl fun _ _ _ _ => .commit_nothing rfl

theorem taskFunc_safe (draws : Draws context) (type : ETransactionType) {db : Database}
    (hsound : Sound db) :
    Safe (fun statements db view => ∃ ops, Commits statements db view ops) (fun _ _ => True)
      (type.taskFunc draws) .start db := by
  cases type with
  | newOrder =>
    exact (getNewOrderTask_safe draws.newOrder db).commit_mono
      fun _ _ _ ⟨_, _, _, hcommits⟩ => ⟨_, hcommits⟩
  | delivery => exact getDeliveryTask_safe draws.delivery hsound
  | orderStatus => exact getOrderStatusTask_safe draws.orderStatus db
  | payment => exact getPaymentTask_safe draws.payment db
  | stockLevel => exact getStockLevelTask_safe draws.stockLevel db

end Tasks

section Exec

variable {onCommit : List (Nat × Modify) → Database → Database → Prop} {db : Database}

/-- How a transaction that runs alone ends: it has changed nothing, or it has committed. -/
def Ends (onCommit : List (Nat × Modify) → Database → Database → Prop) (db : Database) (s : Run) :
    Prop :=
  (s.committed = false ∧ s.durable = db) ∨
    (s.committed = true ∧ ∃ statements, onCommit statements db s.durable)

theorem exec_ends (env : Env) {p : Transaction.Task Bool} {opened : Bool} {t : Progress} {s : Run}
    (hclose : Closes opened p) (hsound : Sound db) (hdurable : s.durable = db)
    (hcommitted : s.committed = false) (hview : applyStatements t.statements db = some s.working)
    (h : Safe onCommit (fun _ _ => True) p t db) : Ends onCommit db (exec env p s) := by
  have hstay : Ends onCommit db s := .inl ⟨hcommitted, hdurable⟩
  induction p generalizing opened t s with
  | pure a => exact hstay
  | throw e => exact hstay
  | request r next ih =>
    cases r with
    | query q =>
      unfold exec
      split
      · exact hstay
      · have hq := h db (.refl _ hsound)
        by_cases hupdate : q.forUpdate = true
        · rw [if_pos hupdate] at hq
          exact ih _ (t := t.lock _) (hclose _) hdurable hcommitted hview (hq s.working hview) hstay
        · rw [if_neg hupdate] at hq
          refine ih _ (hclose _) hdurable hcommitted hview (hq _ fun hstart => ?_) hstay
          rw [hstart] at hview
          exact ⟨db, hsound, .refl db, by rw [Option.some.inj hview]⟩
    | modify m =>
      unfold exec
      split
      · exact hstay
      · split
        · exact hstay
        · next db' happly =>
          refine ih () hclose hdurable hcommitted ?_
            (h db s.working db' _ (.refl _ hsound) hview happly).2 hstay
          rw [Progress.execute, applyStatements_append, hview]
          simp only [Option.bind_some, applyStatements_cons, happly]
          rfl
    | commit =>
      have hcommit : Ends onCommit db s.commit :=
        .inr ⟨rfl, t.statements, h db s.working (.refl _ hsound) hview⟩
      unfold exec
      rw [hclose.2]
      split
      · split
        · exact hcommit
        · exact hstay
      · exact hcommit
    | rollback =>
      obtain ⟨e, he⟩ := hclose
      unfold exec
      rw [he]
      split
      · exact hstay
      · exact hstay
    | requestStopWithError =>
      exact ih () hclose hdurable hcommitted hview (h db (.refl _ hsound)) hstay

theorem Call.run_ends (call : Call) (hsound : Sound db)
    (h : Safe onCommit (fun _ _ => True) (call.type.taskFunc call.draws) .start db) :
    Ends onCommit db (call.run db) :=
  exec_ends call.env (taskFunc_closes call.draws call.type) hsound rfl rfl rfl h

/-- The invariant after operations in a row. -/
theorem Sound.applyAll {ops : List Operation} (h : Sound db) (he : EnabledAll db ops) :
    Sound (ops.foldl Operation.apply db) := by
  induction ops generalizing db with
  | nil => exact h
  | cons op ops ih => exact ih (Sound.apply h he.1) he.2

theorem Sound.run (h : Sound db) (call : Call) : Sound (call.run db).durable := by
  obtain ⟨-, hsame⟩ | ⟨-, statements, ops, hcommits⟩ :=
    Call.run_ends call h (taskFunc_safe call.draws call.type h)
  · rw [hsame]
    exact h
  · rw [hcommits.result]
    exact Sound.applyAll h hcommits.enabled

/-- Every state that a run leads to has the invariant. -/
theorem Sound.runCalls (h : Sound db) (calls : List Call) : Sound (runCalls calls db) := by
  induction calls generalizing db with
  | nil => exact h
  | cons call calls ih => exact ih (Sound.run h call)

end Exec

end Tpcc.Isolation
