import Tpcc.Isolation.Concurrent
import Tpcc.Serial.NoStop

/-! What the statements of the transactions have in common, and what the tables have in every
committed state when each statement keeps it. -/

namespace Tpcc.Isolation

open Lib Store Transaction Serial

/-- What no statement changes: the outline of the tables, and the items. -/
structure Statics where
  outline : Outline
  items : List Item

def statics (db : Database) : Statics := ⟨outline db, db.item⟩

theorem statics_apply {m : Modify} {now : Nat} {db db' : Database}
    (h : m.apply now db = some db') : statics db' = statics db := by
  have hitem : db'.item = db.item := by
    cases m with
    | newOrderInsertOorder =>
      obtain ⟨rows, -, rfl⟩ := Option.map_eq_some_iff.1 h
      rfl
    | newOrderInsertNewOrder =>
      obtain ⟨rows, -, rfl⟩ := Option.map_eq_some_iff.1 h
      rfl
    | newOrderInsertOrderLine =>
      obtain ⟨rows, -, rfl⟩ := Option.map_eq_some_iff.1 h
      rfl
    | _ =>
      obtain rfl := Option.some.inj h
      rfl
  rw [statics, outline_apply h, hitem, statics]

theorem item_applyWrites (writes : List Write) (db : Database) :
    (applyWrites writes db).item = db.item := by
  induction writes generalizing db with
  | nil => rfl
  | cons w rest ih =>
    rw [applyWrites_cons, ih]
    cases w with
    | put v => cases v <;> rfl
    | delete row => cases row <;> rfl
    | history r => rfl

/-- Each statement has the property, after the statements before it. -/
def Issued (P : List Modify → Modify → Prop) : List Modify → List Modify → Prop
  | _, [] => True
  | before, m :: rest => P before m ∧ Issued P (before ++ [m]) rest

theorem Issued.append {P : List Modify → Modify → Prop} {before statements : List Modify}
    {m : Modify} (h : Issued P before statements) (hm : P (before ++ statements) m) :
    Issued P before (statements ++ [m]) := by
  induction statements generalizing before with
  | nil => exact ⟨by simpa using hm, trivial⟩
  | cons first rest ih => exact ⟨h.1, ih h.2 (by simpa using hm)⟩

theorem Issued.mono {P P' : List Modify → Modify → Prop} (hP : ∀ before m, P before m → P' before m)
    {before statements : List Modify} (h : Issued P before statements) :
    Issued P' before statements := by
  induction statements generalizing before with
  | nil => trivial
  | cons first rest ih => exact ⟨hP _ _ h.1, ih h.2⟩

/-- The requests of a transaction whose statements have the property.  The rows of a `SELECT` come
from tables with the given items, and those of a `SELECT … FOR UPDATE` from tables with the given
outline. -/
def issueSpec (o : Statics) (P : List Modify → Modify → Prop) :
    (r : Request) → (r.Reply → List Modify → Prop) → List Modify → Prop
  | .query q, post, before =>
    ∀ db, db.item = o.items → (q.forUpdate = true → statics db = o) → post (q.eval db) before
  | .modify m, post, before => P before m ∧ post () (before ++ [m])
  | .commit, _, _ => True
  | .rollback, _, _ => True
  | .requestStopWithError, post, before => post () before

/-- From here on the statements have the property. -/
def Issues {α : Type} (o : Statics) (P : List Modify → Modify → Prop)
    (post : α → List Modify → Prop) (p : Transaction.Task α) (before : List Modify) : Prop :=
  p.wp (issueSpec o P) post before

variable {o : Statics} {P : List Modify → Modify → Prop}

theorem issueSpec_mono (r : Request) (post post' : r.Reply → List Modify → Prop)
    (h : ∀ a s, post a s → post' a s) (before : List Modify) (hs : issueSpec o P r post before) :
    issueSpec o P r post' before := by
  cases r with
  | query q => exact fun db hitem hdb => h _ _ (hs db hitem hdb)
  | modify m => exact ⟨hs.1, h _ _ hs.2⟩
  | commit => trivial
  | rollback => trivial
  | requestStopWithError => exact h _ _ hs

section Rules

variable {α β : Type} {post : β → List Modify → Prop} {before : List Modify}

theorem Issues.bind {p : Transaction.Task α} {f : α → Transaction.Task β}
    (h : Issues o P (fun a s => Issues o P post (f a) s) p before) :
    Issues o P post (p >>= f) before :=
  Program.wp_bind issueSpec_mono h

theorem Issues.mono {post' : β → List Modify → Prop} {p : Transaction.Task β}
    (hpost : ∀ a s, post a s → post' a s) (h : Issues o P post p before) :
    Issues o P post' p before :=
  Program.wp_mono issueSpec_mono hpost h

/-- A weaker property. -/
theorem Issues.weaken {P' : List Modify → Modify → Prop}
    (hP : ∀ before m, P before m → P' before m) {p : Transaction.Task β}
    (h : Issues o P post p before) : Issues o P' post p before := by
  induction p generalizing before with
  | pure a => exact h
  | throw e => trivial
  | request r next ih =>
    cases r with
    | query q => exact fun db hitem hdb => ih _ (h db hitem hdb)
    | modify m => exact ⟨hP _ _ h.1, ih () h.2⟩
    | commit => trivial
    | rollback => trivial
    | requestStopWithError => exact ih () h

theorem Issues.pure {a : β} (h : post a before) : Issues o P post (Pure.pure a) before := h

theorem Issues.select_forUpdate {q : Query} {f : q.Result → Transaction.Task β}
    (hq : q.forUpdate = true)
    (h : ∀ db, statics db = o → Issues o P post (f (q.eval db)) before) :
    Issues o P post (executeQuery q >>= f) before := fun db _ hdb => h db (hdb hq)

theorem Issues.select {q : Query} {f : q.Result → Transaction.Task β}
    (h : ∀ db, db.item = o.items → Issues o P post (f (q.eval db)) before) :
    Issues o P post (executeQuery q >>= f) before := fun db hitem _ => h db hitem

theorem Issues.modify {m : Modify} {f : Unit → Transaction.Task β} (hm : P before m)
    (h : Issues o P post (f ()) (before ++ [m])) :
    Issues o P post (executeModify m >>= f) before := ⟨hm, h⟩

theorem Issues.commit {f : Unit → Transaction.Task β} :
    Issues o P post (Transaction.commit >>= f) before := trivial

theorem Issues.rollback {f : Unit → Transaction.Task β} :
    Issues o P post (Transaction.rollback >>= f) before := trivial

theorem Issues.stop {f : Unit → Transaction.Task β} (h : Issues o P post (f ()) before) :
    Issues o P post (requestStopWithError >>= f) before := h

end Rules

section Run

variable {init : Database} {Q : Database → Prop} {s s' : State}

/-- The statements that a transaction has executed. -/
def Txn.executed (t : Txn) : List Modify := t.entries.map Entry.statement

/-- The statements of a transaction have the property, those that it has executed and those that
come. -/
structure Txn.Issued (o : Statics) (P : List Modify → Modify → Prop) (t : Txn) : Prop where
  done : Isolation.Issued P [] t.executed
  rest : Issues o P (fun _ _ => True) t.task t.executed

/-- Every committed state has the statics and the property `Q` of the tables. -/
structure IssuedInv (o : Statics) (P : List Modify → Modify → Prop) (Q : Database → Prop)
    (s : State) : Prop where
  committed : s.committed ∈ s.snapshots
  snapshots : ∀ db ∈ s.snapshots, statics db = o ∧ Q db
  txns : ∀ id t, s.txns id = some t → t.Issued o P

/-- Statements that have the property keep `Q`. -/
def Keeps (o : Statics) (P : List Modify → Modify → Prop) (Q : Database → Prop) : Prop :=
  ∀ statements db view, statics db = o → Q db → Isolation.Issued P [] (statements.map Prod.snd) →
    applyStatements statements db = some view → Q view

theorem statics_applyStatements {statements : List (Nat × Modify)} {db view : Database}
    (h : applyStatements statements db = some view) : statics view = statics db := by
  induction statements generalizing db with
  | nil =>
    obtain rfl := Option.some.inj h
    rfl
  | cons first rest ih =>
    obtain ⟨now, m⟩ := first
    obtain ⟨db', hfirst, hrest⟩ := Option.bind_eq_some_iff.1 h
    exact (ih hrest).trans (statics_apply hfirst)

/-- What every statement with the property keeps, statements in a row keep; it may speak of the
statements so far. -/
theorem Issued.invariant {R : List Modify → Database → Prop}
    (hstep : ∀ before m db now db', statics db = o → R before db → P before m →
      m.apply now db = some db' → R (before ++ [m]) db')
    {before : List Modify} {statements : List (Nat × Modify)} {db view : Database}
    (hstatics : statics db = o) (hr : R before db)
    (hissued : Isolation.Issued P before (statements.map Prod.snd))
    (hview : applyStatements statements db = some view) :
    R (before ++ statements.map Prod.snd) view := by
  induction statements generalizing before db with
  | nil =>
    obtain rfl := Option.some.inj hview
    rwa [List.map_nil, List.append_nil]
  | cons first rest ih =>
    obtain ⟨now, m⟩ := first
    obtain ⟨db', hfirst, hrest⟩ := Option.bind_eq_some_iff.1 hview
    have hnext := ih ((statics_apply hfirst).trans hstatics)
      (hstep before m db now db' hstatics hr hissued.1 hfirst) hissued.2 hrest
    rwa [List.append_assoc] at hnext

theorem Keeps.of_step {R : List Modify → Database → Prop}
    (hstep : ∀ before m db now db', statics db = o → R before db → P before m →
      m.apply now db = some db' → R (before ++ [m]) db')
    (hstart : ∀ db, Q db → R [] db) (hend : ∀ before db, R before db → Q db) : Keeps o P Q :=
  fun _ db _ hstatics hq hissued hview =>
    hend _ _ (Issued.invariant hstep hstatics (hstart db hq) hissued hview)

theorem map_snd_statements (entries : List Entry) :
    (statements entries).map Prod.snd = entries.map Entry.statement := by
  rw [statements, List.map_map]
  rfl

theorem IssuedInv.statics_view {id : Nat} {t : Txn} (h : IssuedInv o P Q s) (hinv : Inv init s)
    (ht : s.txns id = some t) : statics (s.view t) = o := by
  obtain ⟨locks, hok⟩ := hinv.txns id t ht
  rw [statics_applyStatements (hok.view hinv.sound)]
  exact (h.snapshots _ h.committed).1

/-- A transaction goes on, and the committed tables stay. -/
theorem IssuedInv.proceed {id : Nat} {t : Txn} {rows : List Row} (h : IssuedInv o P Q s)
    (ht : t.Issued o P) : IssuedInv o P Q ((s.lock id rows).proceed id t) where
  committed := h.committed
  snapshots := h.snapshots
  txns other t' ht' := by
    by_cases hid : other = id
    · subst hid
      obtain rfl : t = t' := by simpa [State.proceed] using ht'
      exact ht
    · refine h.txns other t' ?_
      simpa [State.proceed, State.lock, Function.update_of_ne hid] using ht'

theorem IssuedInv.finish {id : Nat} (h : IssuedInv o P Q s) : IssuedInv o P Q (s.finish id) where
  committed := h.committed
  snapshots := h.snapshots
  txns other t' ht' := by
    by_cases hid : other = id
    · subst hid
      simp [State.finish] at ht'
    · refine h.txns other t' ?_
      simpa [State.finish, Function.update_of_ne hid] using ht'

theorem IssuedInv.commit {id : Nat} {t : Txn} (h : IssuedInv o P Q s) (hinv : Inv init s)
    (hkeeps : Keeps o P Q) (ht : s.txns id = some t) : IssuedInv o P Q (s.commit id t) where
  committed := List.mem_cons_self
  snapshots db hdb := by
    rcases List.mem_cons.1 hdb with rfl | hdb
    · obtain ⟨locks, hok⟩ := hinv.txns id t ht
      obtain ⟨hstatics, hq⟩ := h.snapshots _ h.committed
      refine ⟨h.statics_view hinv ht, hkeeps _ _ _ hstatics hq ?_ (hok.view hinv.sound)⟩
      rw [map_snd_statements]
      exact (h.txns id t ht).done
    · exact h.snapshots db hdb
  txns := (@IssuedInv.finish o P Q s id h).txns

theorem IssuedInv.request {id snapshot now : Nat} {t : Txn} (h : IssuedInv o P Q s)
    (hinv : Inv init s) (hkeeps : Keeps o P Q) (ht : s.txns id = some t)
    (hstep : s.request id snapshot now t = some s') : IssuedInv o P Q s' := by
  obtain ⟨hdone, hrest⟩ := h.txns id t ht
  unfold State.request at hstep
  split at hstep
  · exact nomatch hstep
  · exact nomatch hstep
  · next q next htask =>
    rw [htask] at hrest
    by_cases hupdate : q.forUpdate = true
    · rw [if_pos hupdate] at hstep
      dsimp only at hstep
      split at hstep
      · obtain rfl := Option.some.inj hstep
        have hview := h.statics_view hinv ht
        exact h.proceed ⟨hdone, hrest _ (congrArg Statics.items hview) fun _ => hview⟩
      · exact nomatch hstep
    · rw [if_neg hupdate] at hstep
      obtain ⟨db, hdb, rfl⟩ := Option.map_eq_some_iff.1 hstep
      obtain ⟨hstatics, -⟩ := h.snapshots db (List.mem_of_getElem? hdb)
      rw [← @lock_nil s id]
      refine h.proceed ⟨hdone, hrest _ ?_ fun hforUpdate => absurd hforUpdate hupdate⟩
      rw [item_applyWrites]
      exact congrArg Statics.items hstatics
  · next m next htask =>
    rw [htask] at hrest
    split at hstep
    · exact nomatch hstep
    · next ws hwrites =>
      split at hstep
      · obtain rfl := Option.some.inj hstep
        obtain ⟨hm, hnext⟩ := hrest
        have hexecuted : (Txn.mk (next ()) (t.entries ++ [⟨now, m, ws⟩])).executed =
          t.executed ++ [m] := List.map_append
        refine h.proceed ⟨?_, ?_⟩
        · rw [hexecuted]
          exact hdone.append hm
        · rw [hexecuted]
          exact hnext
      · exact nomatch hstep
  · obtain rfl := Option.some.inj hstep
    exact h.commit hinv hkeeps ht
  · obtain rfl := Option.some.inj hstep
    exact h.finish
  · next next htask =>
    rw [htask] at hrest
    obtain rfl := Option.some.inj hstep
    rw [← @lock_nil s id]
    exact h.proceed ⟨hdone, hrest⟩

/-- The transaction that an action starts issues such statements. -/
def Action.Issues (o : Statics) (P : List Modify → Modify → Prop) : Action → Prop
  | .start _ _ type draws => Isolation.Issues o P (fun _ _ => True) (type.taskFunc draws) []
  | _ => True

theorem step_start {id : Nat} {context : TTransactionContext} {type : ETransactionType}
    {draws : Draws context} (hstep : s.step (.start id context type draws) = some s') :
    s.txns id = none ∧ s' = s.proceed id ⟨type.taskFunc draws, []⟩ := by
  unfold State.step at hstep
  dsimp only at hstep
  split at hstep
  · next hnone => exact ⟨hnone, (Option.some.inj hstep).symm⟩
  · exact nomatch hstep

theorem IssuedInv.step {action : Action} (h : IssuedInv o P Q s) (hinv : Inv init s)
    (hkeeps : Keeps o P Q) (hissues : action.Issues o P) (hstep : s.step action = some s') :
    IssuedInv o P Q s' := by
  cases action with
  | start id context type draws =>
    obtain ⟨-, rfl⟩ := step_start hstep
    rw [← @lock_nil s id]
    exact h.proceed ⟨trivial, hissues⟩
  | request id snapshot now =>
    obtain ⟨t, ht, hrequest⟩ := Option.bind_eq_some_iff.1 hstep
    exact h.request hinv hkeeps ht hrequest
  | abort id =>
    obtain ⟨t, -, rfl⟩ := Option.map_eq_some_iff.1 hstep
    exact h.finish

theorem IssuedInv.start (hq : Q init) : IssuedInv (statics init) P Q (.start init) where
  committed := List.mem_singleton_self init
  snapshots db hdb := by
    obtain rfl := List.mem_singleton.1 hdb
    exact ⟨rfl, hq⟩
  txns _ _ ht := nomatch ht

/-- The statements of every run have the property, and every committed state has `Q`. -/
theorem IssuedInv.run (h : IssuedInv o P Q s) (hinv : Inv init s) (hkeeps : Keeps o P Q)
    {actions : List Action} (hissues : ∀ action ∈ actions, action.Issues o P) :
    IssuedInv o P Q (s.run actions) := by
  induction actions generalizing s with
  | nil => exact h
  | cons action actions ih =>
    obtain ⟨hfirst, hrest⟩ := List.forall_mem_cons.1 hissues
    change IssuedInv o P Q (((s.step action).getD s).run actions)
    cases hstep : s.step action with
    | none => exact ih h hinv hrest
    | some s' => exact ih (h.step hinv hkeeps hfirst hstep) (hinv.step hstep) hrest

end Run

end Tpcc.Isolation
