import Tpcc.Isolation.Lock

/-! What a transaction does up to its commit, whatever the others commit while it runs: a
specification of its requests that `Program.wp` carries through its code. -/

namespace Tpcc.Isolation

open Lib Store Transaction

/-- Statements in a row, each with the time at which it runs. -/
def applyStatements (statements : List (Nat × Modify)) (db : Database) : Option Database :=
  statements.foldlM (fun db s => s.2.apply s.1 db) db

@[simp] theorem applyStatements_nil (db : Database) : applyStatements [] db = some db := rfl

@[simp] theorem applyStatements_cons (now : Nat) (m : Modify) (rest : List (Nat × Modify))
    (db : Database) :
    applyStatements ((now, m) :: rest) db = (m.apply now db).bind (applyStatements rest) := rfl

theorem applyStatements_append (before after : List (Nat × Modify)) (db : Database) :
    applyStatements (before ++ after) db =
      (applyStatements before db).bind (applyStatements after) := List.foldlM_append

/-- A transaction that commits does some operations. -/
structure Commits (statements : List (Nat × Modify)) (db view : Database) (ops : List Operation) :
    Prop where
  enabled : EnabledAll db ops
  result : view = ops.foldl Operation.apply db
  records : Records (statements.map Prod.snd) ops

/-- What a transaction has done: its statements so far, and the rows that its reads have locked. -/
structure Progress where
  statements : List (Nat × Modify)
  locks : List Row

def Progress.start : Progress := ⟨[], []⟩

def Progress.lock (t : Progress) (rows : List Row) : Progress :=
  { t with locks := t.locks ++ rows }

def Progress.execute (t : Progress) (now : Nat) (m : Modify) : Progress :=
  { t with statements := t.statements ++ [(now, m)] }

/-- The rows that a statement of a delivery changes exist: in the transaction's view, or, for the
lines of an order, already in the committed tables. -/
def Hit (db view : Database) : Modify → Prop
  | .deliveryDeleteNewOrder w d o => (w, d, o) ∈ view.newOrder.map NewOrder.key
  | .deliveryUpdateCarrier _ w d o => (w, d, o) ∈ view.oorder.map Oorder.key
  | .deliveryUpdateOrderLineDelivery w d o => (w, d, o) ∈ db.oorder.map Oorder.key
  | _ => True

/-- The requests of a transaction, over its progress and the committed tables, which change between
its requests.  A plain `SELECT` that comes before the first statement sees some committed state;
of the others nothing is said. -/
def spec (onCommit : List (Nat × Modify) → Database → Database → Prop) :
    (r : Request) → (r.Reply → Progress × Database → Prop) → Progress × Database → Prop
  | .query q, post, (t, db) => ∀ db', Rely t.locks db db' →
    if q.forUpdate then
      ∀ view, applyStatements t.statements db' = some view →
        post (q.eval view) (t.lock (q.rows (q.eval view)), db')
    else
      ∀ a, (t.statements = [] → ∃ old, Sound old ∧ Later old db' ∧ a = q.eval old) →
        post a (t, db')
  | .modify m, post, (t, db) => ∀ db' view view' now, Rely t.locks db db' →
    applyStatements t.statements db' = some view → m.apply now view = some view' →
    Hit db' view m ∧ post () (t.execute now m, db')
  | .commit, _, (t, db) => ∀ db' view, Rely t.locks db db' →
    applyStatements t.statements db' = some view → onCommit t.statements db' view
  | .rollback, _, _ => True
  | .requestStopWithError, post, (t, db) => ∀ db', Rely t.locks db db' → post () (t, db')

/-- What holds of a transaction from here on. -/
def Safe {α : Type} (onCommit : List (Nat × Modify) → Database → Database → Prop)
    (post : α → Progress × Database → Prop) (p : Transaction.Task α) (t : Progress)
    (db : Database) : Prop := p.wp (spec onCommit) post (t, db)

variable {onCommit : List (Nat × Modify) → Database → Database → Prop}

theorem spec_mono (r : Request) (post post' : r.Reply → Progress × Database → Prop)
    (h : ∀ a s, post a s → post' a s) (s : Progress × Database) (hs : spec onCommit r post s) :
    spec onCommit r post' s := by
  obtain ⟨t, db⟩ := s
  cases r with
  | query q =>
    intro db' hrely
    have hq := hs db' hrely
    by_cases hupdate : q.forUpdate = true
    · rw [if_pos hupdate] at hq ⊢
      exact fun view hview => h _ _ (hq view hview)
    · rw [if_neg hupdate] at hq ⊢
      exact fun a ha => h _ _ (hq a ha)
  | modify m =>
    intro db' view view' now hrely hview happly
    obtain ⟨hhit, hpost⟩ := hs db' view view' now hrely hview happly
    exact ⟨hhit, h _ _ hpost⟩
  | commit => exact hs
  | rollback => trivial
  | requestStopWithError => exact fun db' hrely => h _ _ (hs db' hrely)

section Rules

variable {α β : Type} {post : β → Progress × Database → Prop} {t : Progress} {db : Database}

theorem Safe.bind {p : Transaction.Task α} {f : α → Transaction.Task β}
    (h : Safe onCommit (fun a s => Safe onCommit post (f a) s.1 s.2) p t db) :
    Safe onCommit post (p >>= f) t db :=
  Program.wp_bind spec_mono h

theorem Safe.mono {post' : β → Progress × Database → Prop} {p : Transaction.Task β}
    (hpost : ∀ a s, post a s → post' a s) (h : Safe onCommit post p t db) :
    Safe onCommit post' p t db :=
  Program.wp_mono spec_mono hpost h

theorem Safe.select_forUpdate {q : Query} {f : q.Result → Transaction.Task β}
    (hq : q.forUpdate = true)
    (h : ∀ db' view, Rely t.locks db db' → applyStatements t.statements db' = some view →
      Safe onCommit post (f (q.eval view)) (t.lock (q.rows (q.eval view))) db') :
    Safe onCommit post (executeQuery q >>= f) t db := by
  intro db' hrely
  rw [if_pos hq]
  exact fun view hview => h db' view hrely hview

theorem Safe.select_plain {q : Query} {f : q.Result → Transaction.Task β}
    (hq : q.forUpdate = false)
    (h : ∀ db' a, Rely t.locks db db' →
      (t.statements = [] → ∃ old, Sound old ∧ Later old db' ∧ a = q.eval old) →
      Safe onCommit post (f a) t db') :
    Safe onCommit post (executeQuery q >>= f) t db := by
  intro db' hrely
  rw [if_neg (by simp [hq])]
  exact fun a ha => h db' a hrely ha

theorem Safe.modify {m : Modify} {f : Unit → Transaction.Task β}
    (h : ∀ db' view view' now, Rely t.locks db db' →
      applyStatements t.statements db' = some view → m.apply now view = some view' →
      Hit db' view m ∧ Safe onCommit post (f ()) (t.execute now m) db') :
    Safe onCommit post (executeModify m >>= f) t db := h

theorem Safe.commit {f : Unit → Transaction.Task β}
    (h : ∀ db' view, Rely t.locks db db' → applyStatements t.statements db' = some view →
      onCommit t.statements db' view) :
    Safe onCommit post (Transaction.commit >>= f) t db := h

theorem Safe.stop {f : Unit → Transaction.Task β}
    (h : ∀ db', Rely t.locks db db' → Safe onCommit post (f ()) t db') :
    Safe onCommit post (requestStopWithError >>= f) t db := h

/-- What the others commit keeps it. -/
theorem Safe.stable {p : Transaction.Task α} {db' : Database}
    (h : Safe onCommit (fun _ _ => True) p t db) (hrely : Rely t.locks db db') :
    Safe onCommit (fun _ _ => True) p t db' := by
  cases p with
  | pure a => trivial
  | throw e => trivial
  | request r next =>
    cases r with
    | query q => exact fun db'' hrely' => h db'' (hrely.trans hrely')
    | modify m => exact fun db'' view view' now hrely' => h db'' view view' now (hrely.trans hrely')
    | commit => exact fun db'' view hrely' => h db'' view (hrely.trans hrely')
    | rollback => trivial
    | requestStopWithError => exact fun db'' hrely' => h db'' (hrely.trans hrely')

theorem Safe.commit_mono {onCommit' : List (Nat × Modify) → Database → Database → Prop}
    (hcommit : ∀ statements db view, onCommit statements db view → onCommit' statements db view)
    {p : Transaction.Task β} (h : Safe onCommit post p t db) : Safe onCommit' post p t db := by
  induction p generalizing t db with
  | pure a => exact h
  | throw e => trivial
  | request r next ih =>
    cases r with
    | query q =>
      intro db' hrely
      have hq := h db' hrely
      by_cases hupdate : q.forUpdate = true
      · rw [if_pos hupdate] at hq ⊢
        exact fun view hview => ih _ (hq view hview)
      · rw [if_neg hupdate] at hq ⊢
        exact fun a ha => ih _ (hq a ha)
    | modify m =>
      intro db' view view' now hrely hview happly
      obtain ⟨hhit, hnext⟩ := h db' view view' now hrely hview happly
      exact ⟨hhit, ih () hnext⟩
    | commit => exact fun db' view hrely hview => hcommit _ _ _ (h db' view hrely hview)
    | rollback => trivial
    | requestStopWithError => exact fun db' hrely => ih () (h db' hrely)

end Rules

end Tpcc.Isolation
