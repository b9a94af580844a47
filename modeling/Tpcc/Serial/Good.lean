import Tpcc.Transaction.Exec
import Tpcc.Transaction.Shape

/-! Transactions that find all they look for: no statement of theirs fails, they never ask for the
stop, and they end with a commit or, where this is allowed, with a rollback. -/

namespace Tpcc.Serial

open Lib Store Transaction

/-- From here on, over the tables that it works on, the transaction finds all that it looks for. -/
def Good (abort : Prop) : Transaction.Task Bool → Database → Prop
  | .pure _, _ => False
  | .throw _, _ => False
  | .request (.query q) next, db => Good abort (next (q.eval db)) db
  | .request (.modify m) next, db =>
    ∀ now, ∃ db', m.apply now db = some db' ∧ Good abort (next ()) db'
  | .request .commit _, _ => True
  | .request .rollback _, _ => abort
  | .request .requestStopWithError _, _ => False

variable {abort : Prop}

theorem Good.select {q : Query} {f : q.Result → Transaction.Task Bool} {db : Database}
    (h : Good abort (f (q.eval db)) db) : Good abort (executeQuery q >>= f) db := h

theorem Good.modify {m : Modify} {f : Unit → Transaction.Task Bool} {db : Database}
    (h : ∀ now, ∃ db', m.apply now db = some db' ∧ Good abort (f ()) db') :
    Good abort (executeModify m >>= f) db := h

theorem Good.commit {f : Unit → Transaction.Task Bool} {db : Database} :
    Good abort (Transaction.commit >>= f) db := trivial

/-- Such a transaction does not ask for the stop, whatever fails. -/
theorem exec_noStop (env : Env) {p : Transaction.Task Bool} {opened : Bool} {s : Run}
    (hclose : Closes opened p) (h : Good abort p s.working) (hstop : s.stopRequested = false) :
    (exec env p s).stopRequested = false := by
  induction p generalizing opened s with
  | pure a => exact hstop
  | throw e => exact hstop
  | request r next ih =>
    cases r with
    | query q =>
      unfold exec
      split
      · exact hstop
      · exact ih _ (hclose _) h hstop
    | modify m =>
      unfold exec
      split
      · exact hstop
      · obtain ⟨db', happly, hnext⟩ := h (env.now s.requests)
        rw [happly]
        exact ih () hclose hnext hstop
    | commit =>
      unfold exec
      rw [hclose.2]
      split
      · split
        · exact hstop
        · exact hstop
      · exact hstop
    | rollback =>
      obtain ⟨e, he⟩ := hclose
      unfold exec
      rw [he]
      split
      · exact hstop
      · exact hstop
    | requestStopWithError => exact h.elim

/-- When no request fails and it may not roll back, it commits. -/
theorem exec_commits {env : Env} (hfault : ∀ n, env.fault n = false) {p : Transaction.Task Bool}
    {opened : Bool} {s : Run} (hclose : Closes opened p) (h : Good False p s.working) :
    (exec env p s).committed = true := by
  induction p generalizing opened s with
  | pure a => exact h.elim
  | throw e => exact h.elim
  | request r next ih =>
    cases r with
    | query q =>
      unfold exec
      rw [if_neg (by simp [hfault])]
      exact ih _ (hclose _) h
    | modify m =>
      unfold exec
      rw [if_neg (by simp [hfault])]
      obtain ⟨db', happly, hnext⟩ := h (env.now s.requests)
      rw [happly]
      exact ih () hclose hnext
    | commit =>
      unfold exec
      rw [if_neg (by simp [hfault]), hclose.2]
      rfl
    | rollback => exact h.elim
    | requestStopWithError => exact h.elim

end Tpcc.Serial
