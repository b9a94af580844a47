import Tpcc.Isolation.Replay
import Tpcc.Isolation.Serial

/-! Transactions that run concurrently, statement by statement.  Statements that write and
`SELECT … FOR UPDATE` act on the latest committed rows and the transaction's own writes, and lock
their rows until the transaction ends; a plain `SELECT` sees the transaction's own writes over some
committed state. -/

namespace Tpcc.Isolation

open Lib Store Transaction

/-- A transaction that has not ended: what it still has to do, and the statements it has executed. -/
structure Txn where
  task : Transaction.Task Bool
  entries : List Entry

/-- The committed tables with all their earlier states, the statements of the committed transactions
in the order of the commits, the transactions that have not ended, and the owners of the locks. -/
structure State where
  committed : Database
  snapshots : List Database
  log : List (List (Nat × Modify))
  txns : Nat → Option Txn
  owner : Row → Option Nat

/-- What can happen next: a transaction begins, makes its next request, or is rolled back.  `snapshot`
is the number of the state that a plain `SELECT` sees, `now` the time. -/
inductive Action
  | start (id : Nat) (context : TTransactionContext) (type : ETransactionType)
      (draws : Draws context)
  | request (id snapshot now : Nat)
  | abort (id : Nat)

namespace State

def start (db : Database) : State where
  committed := db
  snapshots := [db]
  log := []
  txns _ := none
  owner _ := none

variable (s : State) (id : Nat)

/-- The latest committed rows and the transaction's own writes. -/
def view (t : Txn) : Database := applyWrites (writes t.entries) s.committed

/-- No other transaction has locked the rows. -/
def free (rows : List Row) : Bool := rows.all fun r => s.owner r = none ∨ s.owner r = some id

def lock (rows : List Row) : State :=
  { s with owner := fun r => if r ∈ rows then some id else s.owner r }

def proceed (t : Txn) : State := { s with txns := Function.update s.txns id (some t) }

/-- The end of a transaction, which gives its locks back. -/
def finish : State :=
  { s with
    txns := Function.update s.txns id none
    owner := fun r => if s.owner r = some id then none else s.owner r }

def commit (t : Txn) : State :=
  { s.finish id with
    committed := s.view t
    snapshots := s.view t :: s.snapshots
    log := s.log ++ [statements t.entries] }

/-- The next request of a transaction.  It cannot be made while another transaction holds a lock it
needs, and an `INSERT` of a key that exists fails.  With `COMMIT` or `ROLLBACK` the transaction ends;
no request comes after them. -/
def request (snapshot now : Nat) (t : Txn) : Option State :=
  match t.task with
  | .pure _ => none
  | .throw _ => none
  | .request (.query q) next =>
    if q.forUpdate then
      let result := q.eval (s.view t)
      if s.free id (q.rows result) then
        some ((s.lock id (q.rows result)).proceed id { t with task := next result })
      else none
    else
      s.snapshots[snapshot]?.map fun db =>
        s.proceed id { t with task := next (q.eval (applyWrites (writes t.entries) db)) }
  | .request (.modify m) next =>
    match m.writes now (s.view t) with
    | none => none
    | some ws =>
      if s.free id (writeRows ws) then
        some ((s.lock id (writeRows ws)).proceed id ⟨next (), t.entries ++ [⟨now, m, ws⟩]⟩)
      else none
  | .request .commit _ => some (s.commit id t)
  | .request .rollback _ => some (s.finish id)
  | .request .requestStopWithError next => some (s.proceed id { t with task := next () })

def step : Action → Option State
  | .start id _ type draws =>
    match s.txns id with
    | none => some (s.proceed id ⟨type.taskFunc draws, []⟩)
    | some _ => none
  | .request id snapshot now => (s.txns id).bind (s.request id snapshot now)
  | .abort id => (s.txns id).map fun _ => s.finish id

/-- The state after actions in a row; what cannot happen is left out. -/
def run (actions : List Action) : State :=
  actions.foldl (fun s action => (s.step action).getD s) s

end State

/-- What holds of a transaction that has not ended. -/
structure TxnOk (s : State) (id : Nat) (t : Txn) (locks : List Row) : Prop where
  owned : ∀ r ∈ locks, s.owner r = some id
  written : ∀ r ∈ writeRows (writes t.entries), s.owner r = some id
  safe : Safe (fun statements db view => ∃ ops, Commits statements db view ops) (fun _ _ => True)
    t.task ⟨statements t.entries, locks⟩ s.committed
  replays : Replays (s.committed.oorder.map Oorder.key) t.entries s.committed

/-- The invariant of a run from `init`: the committed transactions are operations in the order of
the commits. -/
structure Inv (init : Database) (s : State) : Prop where
  sound : Sound s.committed
  snapshots : ∀ db ∈ s.snapshots, Sound db ∧ Later db s.committed
  txns : ∀ id t, s.txns id = some t → ∃ locks, TxnOk s id t locks
  log : ∃ ops, Commits s.log.flatten init s.committed ops

section Commits

theorem Later.applyAll {db : Database} {ops : List Operation} (h : Sound db)
    (he : EnabledAll db ops) : Later db (ops.foldl Operation.apply db) := by
  induction ops generalizing db with
  | nil => exact .refl db
  | cons op ops ih => exact (Later.apply h he.1).trans (ih (Sound.apply h he.1) he.2)

theorem EnabledAll.append {db : Database} {ops ops' : List Operation} (h : EnabledAll db ops)
    (h' : EnabledAll (ops.foldl Operation.apply db) ops') : EnabledAll db (ops ++ ops') := by
  induction ops generalizing db with
  | nil => exact h'
  | cons op ops ih => exact ⟨h.1, ih h.2 h'⟩

theorem Records.append {statements statements' : List Modify} {ops ops' : List Operation}
    (h : Records statements ops) (h' : Records statements' ops') :
    Records (statements ++ statements') (ops ++ ops') where
  orders := by rw [List.filterMap_append, List.flatMap_append, h.orders, h'.orders]
  supplied := by rw [List.filterMap_append, List.flatMap_append, h.supplied, h'.supplied]
  removed := by rw [List.filterMap_append, List.flatMap_append, h.removed, h'.removed]
  credits := by rw [List.filterMap_append, List.flatMap_append, h.credits, h'.credits]

theorem Commits.append {before after : List (Nat × Modify)} {db db' db'' : Database}
    {ops ops' : List Operation} (h : Commits before db db' ops) (h' : Commits after db' db'' ops') :
    Commits (before ++ after) db db'' (ops ++ ops') where
  enabled := EnabledAll.append h.enabled (h.result ▸ h'.enabled)
  result := by rw [List.foldl_append, ← h.result, ← h'.result]
  records := by
    rw [List.map_append]
    exact Records.append h.records h'.records

end Commits

section Step

variable {init : Database} {s : State} {id : Nat} {t : Txn} {locks : List Row}

/-- What others do keeps it, when they leave the locks alone. -/
theorem TxnOk.stable {s' : State} (h : TxnOk s id t locks) (hsound : Sound s.committed)
    (howner : ∀ r, s.owner r = some id → s'.owner r = some id)
    (hrely : ∀ rows : List Row, (∀ r ∈ rows, s.owner r = some id) →
      Rely rows s.committed s'.committed) : TxnOk s' id t locks where
  owned r hr := howner r (h.owned r hr)
  written r hr := howner r (h.written r hr)
  safe := h.safe.stable (hrely locks h.owned)
  replays := by
    have hrely' := hrely (writeRows (writes t.entries)) h.written
    refine Replays.mono ?_ (h.replays.stable (hrely'.matches hsound) (List.Subset.refl _))
    intro k hk
    obtain ⟨o, ho, rfl⟩ := List.mem_map.1 hk
    obtain ⟨o', ho', hkey, -⟩ := hrely'.later.orders o ho
    exact List.mem_map.2 ⟨o', ho', hkey⟩

/-- The statements so far give the transaction's view. -/
theorem TxnOk.view (h : TxnOk s id t locks) (hsound : Sound s.committed) :
    applyStatements (statements t.entries) s.committed = some (s.view t) :=
  Replays.applyStatements hsound.keyed h.replays

theorem owner_lock {rows : List Row} {other : Nat} {r : Row} (hfree : s.free id rows = true)
    (hne : other ≠ id) (h : s.owner r = some other) : (s.lock id rows).owner r = some other := by
  have hr : r ∉ rows := by
    intro hmem
    have howner := of_decide_eq_true (List.all_eq_true.1 hfree r hmem)
    rw [h] at howner
    rcases howner with hnone | hsome
    · exact nomatch hnone
    · exact hne (Option.some.inj hsome)
  exact (if_neg hr).trans h

theorem owner_lock_self {rows : List Row} {r : Row} (h : s.owner r = some id ∨ r ∈ rows) :
    (s.lock id rows).owner r = some id := by
  change (if r ∈ rows then some id else s.owner r) = some id
  by_cases hr : r ∈ rows
  · rw [if_pos hr]
  · rw [if_neg hr]
    exact h.resolve_right hr

theorem owner_finish {other : Nat} {r : Row} (hne : other ≠ id) (h : s.owner r = some other) :
    (s.finish id).owner r = some other := by
  refine (if_neg ?_).trans h
  rw [h]
  exact fun heq => hne (Option.some.inj heq)

/-- A transaction goes on, and the committed tables stay. -/
theorem Inv.proceed {rows : List Row} (h : Inv init s) (hfree : s.free id rows = true)
    (ht : ∃ locks, TxnOk ((s.lock id rows).proceed id t) id t locks) :
    Inv init ((s.lock id rows).proceed id t) where
  sound := h.sound
  snapshots := h.snapshots
  txns other t' ht' := by
    by_cases hid : other = id
    · subst hid
      obtain rfl : t = t' := by simpa [State.proceed] using ht'
      exact ht
    · have hother : s.txns other = some t' := by
        simpa [State.proceed, State.lock, Function.update_of_ne hid] using ht'
      obtain ⟨locks, hok⟩ := h.txns other t' hother
      exact ⟨locks, hok.stable h.sound (fun r => owner_lock hfree hid)
        fun rows _ => .refl rows h.sound⟩
  log := h.log

theorem free_nil : s.free id [] = true := rfl

theorem lock_nil : s.lock id [] = s := by
  simp [State.lock]

theorem Inv.finish (h : Inv init s) : Inv init (s.finish id) where
  sound := h.sound
  snapshots := h.snapshots
  txns other t' ht' := by
    by_cases hid : other = id
    · subst hid
      simp [State.finish] at ht'
    · have hother : s.txns other = some t' := by
        simpa [State.finish, Function.update_of_ne hid] using ht'
      obtain ⟨locks, hok⟩ := h.txns other t' hother
      exact ⟨locks, hok.stable h.sound (fun r => owner_finish hid)
        fun rows _ => .refl rows h.sound⟩
  log := h.log

/-- A commit changes no row that another transaction has locked. -/
theorem TxnOk.agree (h : TxnOk s id t locks) {other : Nat} (hne : other ≠ id) {rows : List Row}
    (hrows : ∀ r ∈ rows, s.owner r = some other) : Agree rows s.committed (s.view t) := by
  intro r hr
  refine version_applyWrites_of_not_mem fun hwritten => hne ?_
  exact Option.some.inj ((hrows r hr).symm.trans (h.written r hwritten))

theorem Inv.commit (h : Inv init s) (hok : TxnOk s id t locks) {next : Unit → Transaction.Task Bool}
    (htask : t.task = .request .commit next) : Inv init (s.commit id t) := by
  have hsafe := hok.safe
  rw [htask] at hsafe
  obtain ⟨ops, hcommits⟩ := hsafe s.committed (s.view t) (.refl _ h.sound) (hok.view h.sound)
  have hsound : Sound (s.view t) := by
    rw [hcommits.result]
    exact Sound.applyAll h.sound hcommits.enabled
  have hlater : Later s.committed (s.view t) := by
    rw [hcommits.result]
    exact Later.applyAll h.sound hcommits.enabled
  refine ⟨hsound, fun db hdb => ?_, fun other t' ht' => ?_, ?_⟩
  · rcases List.mem_cons.1 hdb with rfl | hdb
    · exact ⟨hsound, .refl _⟩
    · exact ⟨(h.snapshots db hdb).1, (h.snapshots db hdb).2.trans hlater⟩
  · by_cases hid : other = id
    · subst hid
      simp [State.commit, State.finish] at ht'
    · have hother : s.txns other = some t' := by
        simpa [State.commit, State.finish, Function.update_of_ne hid] using ht'
      obtain ⟨locks', hok'⟩ := h.txns other t' hother
      exact ⟨locks', hok'.stable h.sound (fun r => owner_finish hid)
        fun rows hrows => ⟨hok.agree hid hrows, hlater, hsound⟩⟩
  · obtain ⟨before, hbefore⟩ := h.log
    refine ⟨before ++ ops, ?_⟩
    change Commits (s.log ++ [statements t.entries]).flatten init (s.view t) _
    rw [List.flatten_append, List.flatten_singleton]
    exact hbefore.append hcommits

end Step

section Run

variable {init : Database} {s s' : State} {id : Nat} {t : Txn} {locks : List Row}

/-- A transaction goes on after a read; `rows` are locked. -/
theorem Inv.read {rows : List Row} {task : Transaction.Task Bool} (h : Inv init s)
    (hok : TxnOk s id t locks) (hfree : s.free id rows = true)
    (hsafe : Safe (fun statements db view => ∃ ops, Commits statements db view ops)
      (fun _ _ => True) task ⟨statements t.entries, locks ++ rows⟩ s.committed) :
    Inv init ((s.lock id rows).proceed id { t with task := task }) := by
  refine h.proceed hfree ⟨locks ++ rows, fun r hr => ?_, fun r hr => ?_, hsafe, hok.replays⟩
  · rcases List.mem_append.1 hr with hr | hr
    · exact owner_lock_self (.inl (hok.owned r hr))
    · exact owner_lock_self (.inr hr)
  · exact owner_lock_self (.inl (hok.written r hr))

theorem Inv.select {q : Query} {next : q.Result → Transaction.Task Bool} (h : Inv init s)
    (hok : TxnOk s id t locks) (htask : t.task = .request (.query q) next)
    (hupdate : q.forUpdate = true) (hfree : s.free id (q.rows (q.eval (s.view t))) = true) :
    Inv init ((s.lock id (q.rows (q.eval (s.view t)))).proceed id
      { t with task := next (q.eval (s.view t)) }) := by
  refine h.read hok hfree ?_
  have hsafe := hok.safe
  rw [htask] at hsafe
  have hquery := hsafe s.committed (.refl _ h.sound)
  rw [if_pos hupdate] at hquery
  exact hquery (s.view t) (hok.view h.sound)

theorem Inv.selectPlain {q : Query} {next : q.Result → Transaction.Task Bool} {db : Database}
    (h : Inv init s) (hok : TxnOk s id t locks) (htask : t.task = .request (.query q) next)
    (hupdate : ¬q.forUpdate = true) (hdb : db ∈ s.snapshots) :
    Inv init (s.proceed id
      { t with task := next (q.eval (applyWrites (writes t.entries) db)) }) := by
  have hsafe := hok.safe
  rw [htask] at hsafe
  have hquery := hsafe s.committed (.refl _ h.sound)
  rw [if_neg hupdate] at hquery
  rw [← @lock_nil s id]
  refine h.read hok free_nil ?_
  rw [List.append_nil]
  refine hquery _ fun hstart => ⟨db, (h.snapshots db hdb).1, (h.snapshots db hdb).2, ?_⟩
  rw [List.map_eq_nil_iff.1 hstart]
  rfl

theorem Inv.modify {m : Modify} {next : Unit → Transaction.Task Bool} {now : Nat} {ws : List Write}
    (h : Inv init s) (hok : TxnOk s id t locks) (htask : t.task = .request (.modify m) next)
    (hwrites : m.writes now (s.view t) = some ws) (hfree : s.free id (writeRows ws) = true) :
    Inv init ((s.lock id (writeRows ws)).proceed id ⟨next (), t.entries ++ [⟨now, m, ws⟩]⟩) := by
  have hkeyed : Keyed (s.view t) := Keyed.applyWrites h.sound.keyed _
  have hsafe := hok.safe
  rw [htask] at hsafe
  obtain ⟨hhit, hnext⟩ := hsafe s.committed (s.view t) _ now (.refl _ h.sound) (hok.view h.sound)
    (Modify.apply_of_writes hkeyed hwrites)
  refine h.proceed hfree ⟨locks, fun r hr => ?_, fun r hr => ?_, ?_, ?_⟩
  · exact owner_lock_self (.inl (hok.owned r hr))
  · rw [writes, List.flatMap_append, writeRows, List.filterMap_append] at hr
    rcases List.mem_append.1 hr with hr | hr
    · exact owner_lock_self (.inl (hok.written r hr))
    · rw [List.flatMap_singleton] at hr
      exact owner_lock_self (.inr hr)
  · have hstatements : statements (t.entries ++ [⟨now, m, ws⟩]) =
        statements t.entries ++ [(now, m)] := List.map_append
    rw [hstatements]
    exact hnext
  · exact hok.replays.append hwrites (Hit.fits hkeyed hhit hwrites)

theorem Inv.request {snapshot now : Nat} (h : Inv init s) (ht : s.txns id = some t)
    (hstep : s.request id snapshot now t = some s') : Inv init s' := by
  obtain ⟨locks, hok⟩ := h.txns id t ht
  unfold State.request at hstep
  split at hstep
  · exact nomatch hstep
  · exact nomatch hstep
  · next q next htask =>
    by_cases hupdate : q.forUpdate = true
    · rw [if_pos hupdate] at hstep
      dsimp only at hstep
      split at hstep
      · next hfree =>
        obtain rfl := Option.some.inj hstep
        exact h.select hok htask hupdate hfree
      · exact nomatch hstep
    · rw [if_neg hupdate] at hstep
      obtain ⟨db, hdb, rfl⟩ := Option.map_eq_some_iff.1 hstep
      exact h.selectPlain hok htask hupdate (List.mem_of_getElem? hdb)
  · next m next htask =>
    split at hstep
    · exact nomatch hstep
    · next ws hwrites =>
      split at hstep
      · next hfree =>
        obtain rfl := Option.some.inj hstep
        exact h.modify hok htask hwrites hfree
      · exact nomatch hstep
  · next next htask =>
    obtain rfl := Option.some.inj hstep
    exact h.commit hok htask
  · obtain rfl := Option.some.inj hstep
    exact h.finish
  · next next htask =>
    obtain rfl := Option.some.inj hstep
    have hsafe := hok.safe
    rw [htask] at hsafe
    rw [← @lock_nil s id]
    refine h.read hok free_nil ?_
    rw [List.append_nil]
    exact hsafe s.committed (.refl _ h.sound)

theorem Inv.step {action : Action} (h : Inv init s) (hstep : s.step action = some s') :
    Inv init s' := by
  cases action with
  | start id context type draws =>
    change (match s.txns id with
      | none => some (s.proceed id ⟨type.taskFunc draws, []⟩)
      | some _ => none) = some s' at hstep
    split at hstep
    · obtain rfl := Option.some.inj hstep
      rw [← @lock_nil s id]
      exact h.proceed free_nil ⟨[], nofun, nofun, taskFunc_safe draws type h.sound, trivial⟩
    · exact nomatch hstep
  | request id snapshot now =>
    obtain ⟨t, ht, hrequest⟩ := Option.bind_eq_some_iff.1 hstep
    exact h.request ht hrequest
  | abort id =>
    obtain ⟨t, -, rfl⟩ := Option.map_eq_some_iff.1 hstep
    exact h.finish

theorem Inv.start (h : Sound init) : Inv init (.start init) where
  sound := h
  snapshots db hdb := by
    obtain rfl := List.mem_singleton.1 hdb
    exact ⟨h, .refl _⟩
  txns _ _ ht := nomatch ht
  log := ⟨[], trivial, rfl, rfl, rfl, rfl, rfl⟩

/-- The invariant holds in every state that a run leads to. -/
theorem Inv.run (h : Inv init s) (actions : List Action) : Inv init (s.run actions) := by
  induction actions generalizing s with
  | nil => exact h
  | cons action actions ih =>
    refine ih ?_
    dsimp only
    cases hstep : s.step action with
    | none => exact h
    | some s' => exact h.step hstep

end Run

end Tpcc.Isolation
