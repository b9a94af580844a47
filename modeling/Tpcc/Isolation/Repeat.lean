import Tpcc.Isolation.Delivery
import Tpcc.Isolation.Issued
import Tpcc.Transaction.Uniform

/-! Reads that a transaction could repeat at its commit: their results are the same then, in the
columns that it uses, whatever the others have committed since. -/

namespace Tpcc.Transaction

open Store

/-- A Delivery finds a new order. -/
def Query.found : (q : Query) → q.Result → Bool
  | .deliverySelectNewOrderForUpdate _ _, result => Option.isSome result
  | _, _ => true

end Tpcc.Transaction

namespace Tpcc.Isolation

open Lib Store Transaction Serial

/-- What the others can do to the tables while a transaction holds its locks, with what no statement
changes. -/
structure Relies (locks : List Row) (db db' : Database) : Prop extends Rely locks db db' where
  statics : statics db' = Isolation.statics db

/-- The result is the same whatever the others commit from here on. -/
def Lasts (q : Query) (t : Progress) (db : Database) (result : q.Result) : Prop :=
  ∀ db' view, Relies t.locks db db' → applyStatements t.statements db' = some view →
    q.Same (q.eval view) result

/-- The requests of a transaction over its progress, the committed tables and what is known of its
reads so far, which is to be that their results last when it commits.  A plain `SELECT` that comes
before the first statement sees some committed state, one that is `latest` what a
`SELECT … FOR UPDATE` sees. -/
def repeatSpec (latest : Prop) :
    (r : Request) → (r.Reply → Progress × Database × Prop → Prop) → Progress × Database × Prop → Prop
  | .query q, post, (t, db, last) => ∀ db', Relies t.locks db db' →
    if q.forUpdate then
      ∀ view, applyStatements t.statements db' = some view → q.found (q.eval view) = true →
        post (q.eval view) (t.lock (q.rows (q.eval view)), db',
          last ∧ Lasts q (t.lock (q.rows (q.eval view))) db' (q.eval view))
    else
      ∀ seen, seen.item = db'.item → (t.statements = [] → Sound seen ∧ Later seen db') →
        (latest → applyStatements t.statements db' = some seen) →
        post (q.eval seen) (t, db', last ∧ Lasts q t db' (q.eval seen))
  | .modify m, post, (t, db, last) => ∀ db' now, Relies t.locks db db' →
    post () (t.execute now m, db', last)
  | .commit, _, (_, _, last) => last
  | .rollback, _, _ => True
  | .requestStopWithError, post, (t, db, last) => ∀ db', Relies t.locks db db' →
    post () (t, db', last)

/-- From here on the transaction commits only if the results of its reads last. -/
def Repeats {α : Type} (latest : Prop) (post : α → Progress × Database × Prop → Prop)
    (p : Transaction.Task α) (t : Progress) (db : Database) (last : Prop) : Prop :=
  p.wp (repeatSpec latest) post (t, db, last)

variable {latest : Prop}

theorem repeatSpec_mono (r : Request) (post post' : r.Reply → Progress × Database × Prop → Prop)
    (h : ∀ a s, post a s → post' a s) (s : Progress × Database × Prop)
    (hs : repeatSpec latest r post s) : repeatSpec latest r post' s := by
  obtain ⟨t, db, last⟩ := s
  cases r with
  | query q =>
    intro db' hrely
    have hq := hs db' hrely
    by_cases hupdate : q.forUpdate = true
    · rw [if_pos hupdate] at hq ⊢
      exact fun view hview hfound => h _ _ (hq view hview hfound)
    · rw [if_neg hupdate] at hq ⊢
      exact fun seen hitem hstart hlatest => h _ _ (hq seen hitem hstart hlatest)
  | modify m => exact fun db' now hrely => h _ _ (hs db' now hrely)
  | commit => exact hs
  | rollback => trivial
  | requestStopWithError => exact fun db' hrely => h _ _ (hs db' hrely)

section Relies

variable {locks : List Row} {db db' db'' : Database}

theorem Relies.refl (locks : List Row) (h : Sound db) : Relies locks db db := ⟨.refl locks h, rfl⟩

theorem Relies.trans (h : Relies locks db db') (h' : Relies locks db' db'') :
    Relies locks db db'' :=
  ⟨h.toRely.trans h'.toRely, h'.statics.trans h.statics⟩

theorem Relies.mono {locks' : List Row} (h : Relies locks db db') (hsub : locks' ⊆ locks) :
    Relies locks' db db' := ⟨h.toRely.mono hsub, h.statics⟩

theorem Relies.item (h : Relies locks db db') : db'.item = db.item :=
  congrArg Statics.items h.statics

end Relies

section Rules

variable {α β : Type} {post : β → Progress × Database × Prop → Prop} {t : Progress} {db : Database}
  {last : Prop}

theorem Repeats.bind {p : Transaction.Task α} {f : α → Transaction.Task β}
    (h : Repeats latest (fun a s => Repeats latest post (f a) s.1 s.2.1 s.2.2) p t db last) :
    Repeats latest post (p >>= f) t db last :=
  Program.wp_bind repeatSpec_mono h

/-- What is known of the reads so far. -/
theorem Repeats.of_last {p : Transaction.Task β} (hlast : last)
    (h : Repeats latest post p t db True) : Repeats latest post p t db last := by
  rwa [eq_true hlast]

theorem Repeats.select_forUpdate {q : Query} {f : q.Result → Transaction.Task β}
    (hq : q.forUpdate = true)
    (h : ∀ db' view, Relies t.locks db db' → applyStatements t.statements db' = some view →
      q.found (q.eval view) = true →
      Lasts q (t.lock (q.rows (q.eval view))) db' (q.eval view) ∧
        Repeats latest post (f (q.eval view)) (t.lock (q.rows (q.eval view))) db' True) :
    Repeats latest post (executeQuery q >>= f) t db True := by
  intro db' hrely
  rw [if_pos hq]
  intro view hview hfound
  obtain ⟨hlasts, hnext⟩ := h db' view hrely hview hfound
  exact Repeats.of_last ⟨trivial, hlasts⟩ hnext

/-- A plain `SELECT` whose result lasts, or after which the transaction does not commit. -/
theorem Repeats.select_plain {q : Query} {f : q.Result → Transaction.Task β}
    (hq : q.forUpdate = false)
    (h : ∀ db' seen, Relies t.locks db db' → seen.item = db'.item →
      (t.statements = [] → Sound seen ∧ Later seen db') →
      (latest → applyStatements t.statements db' = some seen) →
      Lasts q t db' (q.eval seen) ∧ Repeats latest post (f (q.eval seen)) t db' True ∨
        ∀ last, Repeats latest post (f (q.eval seen)) t db' last) :
    Repeats latest post (executeQuery q >>= f) t db True := by
  intro db' hrely
  rw [if_neg (by simp [hq])]
  intro seen hitem hstart hlatest
  rcases h db' seen hrely hitem hstart hlatest with ⟨hlasts, hnext⟩ | hnext
  · exact Repeats.of_last ⟨trivial, hlasts⟩ hnext
  · exact hnext _

theorem Repeats.modify {m : Modify} {f : Unit → Transaction.Task β}
    (h : ∀ db' now, Relies t.locks db db' →
      Repeats latest post (f ()) (t.execute now m) db' last) :
    Repeats latest post (executeModify m >>= f) t db last := h

theorem Repeats.commit {f : Unit → Transaction.Task β} (hlast : last) :
    Repeats latest post (Transaction.commit >>= f) t db last := hlast

theorem Repeats.rollback {f : Unit → Transaction.Task β} :
    Repeats latest post (Transaction.rollback >>= f) t db last := trivial

theorem Repeats.stop {f : Unit → Transaction.Task β}
    (h : ∀ db', Relies t.locks db db' → Repeats latest post (f ()) t db' last) :
    Repeats latest post (requestStopWithError >>= f) t db last := h

/-- What the others commit keeps it. -/
theorem Repeats.stable {p : Transaction.Task α} {db' : Database}
    (h : Repeats latest (fun _ _ => True) p t db last) (hrely : Relies t.locks db db') :
    Repeats latest (fun _ _ => True) p t db' last := by
  cases p with
  | pure a => trivial
  | throw e => trivial
  | request r next =>
    cases r with
    | query q => exact fun db'' hrely' => h db'' (hrely.trans hrely')
    | modify m => exact fun db'' now hrely' => h db'' now (hrely.trans hrely')
    | commit => exact h
    | rollback => trivial
    | requestStopWithError => exact fun db'' hrely' => h db'' (hrely.trans hrely')

end Rules

section Leaves

variable {β : Type} {g : Database → β} {statements : List (Nat × Modify)}

/-- The statements change no part of the tables that `g` is about. -/
def Leaves (g : Database → β) (statements : List (Nat × Modify)) : Prop :=
  ∀ db view, applyStatements statements db = some view → g view = g db

theorem Leaves.nil : Leaves g [] := by
  intro db view hview
  rw [Option.some.inj hview]

theorem Leaves.execute {t : Progress} {m : Modify} {now : Nat} (h : Leaves g t.statements)
    (hm : ∀ db db', m.apply now db = some db' → g db' = g db) :
    Leaves g (t.execute now m).statements := by
  intro db view hview
  rw [Progress.execute, applyStatements_append] at hview
  obtain ⟨db', hbefore, hlast⟩ := Option.bind_eq_some_iff.1 hview
  obtain ⟨db'', happly, hrest⟩ := Option.bind_eq_some_iff.1 hlast
  obtain rfl := Option.some.inj hrest
  exact (hm _ _ happly).trans (h _ _ hbefore)

end Leaves

section Lasts

variable {locks : List Row} {statements : List (Nat × Modify)} {db db' view : Database}

/-- A row that a transaction has locked, or that does not exist in a table whose keys never change. -/
theorem lookup_lasts {α κ : Type} [DecidableEq κ] (T : TableRef α κ) {k : κ}
    (hstatic : (T.row k).static = true) (hsound : Sound db) (hleaves : Leaves T.get statements)
    (hlock : ∀ r ∈ Table.lookup T.key k (T.get db), T.row k ∈ locks)
    (hrely : Relies locks db db') (hview : applyStatements statements db' = some view) :
    Table.lookup T.key k (T.get view) = Table.lookup T.key k (T.get db) := by
  rw [hleaves db' view hview]
  refine T.lookup_of_same ?_
  have hpresent := (hrely.toRely.matches hsound).present (T.row k) hstatic
  have hversion := T.version_row db k
  cases hr : Table.lookup T.key k (T.get db) with
  | none =>
    rw [hr, Option.map_none] at hversion
    rw [hversion] at hpresent ⊢
    exact Option.not_isSome_iff_eq_none.1 (by rw [hpresent]; decide)
  | some r => exact hrely.agree _ (hlock r hr)

/-- The row that a `SELECT … FOR UPDATE` finds is locked. -/
theorem mem_lock {α κ : Type} [DecidableEq κ] (T : TableRef α κ) {k : κ} {rows : List α} {r : α}
    (hr : Table.lookup T.key k rows = some r) :
    T.row k ∈ (Table.lookup T.key k rows).toList.map fun r => T.row (T.key r) := by
  rw [hr, ← (Table.lookup_eq_some hr).2]
  exact List.mem_singleton_self _

end Lasts

end Tpcc.Isolation
