import Tpcc.Isolation.Repeated

/-! A run of concurrent transactions leaves the tables as the transactions that it commits do when they
are called one after the other, in the order of their commits. -/

namespace Tpcc.Transaction

open Store

section Alone

/-- No request fails, and each has its time. -/
def Env.faultless (times : List Nat) : Env where
  fault _ := false
  commitsAnyway := false
  now n := times.getD n 0

/-- Alone, from the tables `db`, a transaction comes to `p` with requests at the given times. -/
inductive Reaches (task : Task Bool) (db : Database) : List Nat → Task Bool → Database → Prop
  | start : Reaches task db [] task db
  | query {times : List Nat} {q : Query} {next : q.Result → Task Bool} {view : Database}
      (now : Nat) : Reaches task db times (.request (.query q) next) view →
    Reaches task db (times ++ [now]) (next (q.eval view)) view
  | modify {times : List Nat} {m : Modify} {next : Unit → Task Bool} {view view' : Database}
      {now : Nat} : Reaches task db times (.request (.modify m) next) view →
    m.apply now view = some view' → Reaches task db (times ++ [now]) (next ()) view'
  | stop {times : List Nat} {next : Unit → Task Bool} {view : Database} :
    Reaches task db times (.request .requestStopWithError next) view →
    Reaches task db times (next ()) view

variable {task p : Task Bool} {db view : Database} {times : List Nat}

theorem Reaches.exec (h : Reaches task db times p view) (rest : List Nat) :
    ∃ stop, exec (.faultless (times ++ rest)) task (.start db) =
      exec (.faultless (times ++ rest)) p ⟨times.length, view, db, false, stop⟩ := by
  induction h generalizing rest with
  | start => exact ⟨false, rfl⟩
  | @query times q next view now _ ih =>
    obtain ⟨stop, hstop⟩ := ih (now :: rest)
    rw [List.append_assoc, List.singleton_append, hstop, List.length_append]
    exact ⟨stop, rfl⟩
  | @modify times m next view view' now _ happly ih =>
    obtain ⟨stop, hstop⟩ := ih (now :: rest)
    rw [List.append_assoc, List.singleton_append, hstop, List.length_append]
    have hnow : (Env.faultless (times ++ now :: rest)).now times.length = now := by
      simp [Env.faultless]
    refine ⟨stop, ?_⟩
    simp only [Transaction.exec, hnow, happly]
    rfl
  | stop _ ih =>
    obtain ⟨stop, hstop⟩ := ih rest
    rw [hstop]
    exact ⟨true, rfl⟩

theorem Reaches.closes (hclose : Closes false task) (h : Reaches task db times p view) :
    ∃ opened, Closes opened p := by
  induction h with
  | start => exact ⟨false, hclose⟩
  | query _ _ ih =>
    obtain ⟨_, hnext⟩ := ih
    exact ⟨true, hnext _⟩
  | modify _ _ ih =>
    obtain ⟨_, hnext⟩ := ih
    exact ⟨true, hnext⟩
  | stop _ ih =>
    obtain ⟨opened, hnext⟩ := ih
    exact ⟨opened, hnext⟩

/-- The commit makes what it has changed durable. -/
theorem Reaches.commit {next : Unit → Task Bool} (hclose : Closes false task)
    (h : Reaches task db times (.request .commit next) view) :
    (Transaction.exec (.faultless times) task (.start db)).durable = view := by
  obtain ⟨stop, hstop⟩ := h.exec []
  obtain ⟨_, -, hnext⟩ := h.closes hclose
  rw [List.append_nil] at hstop
  rw [hstop]
  simp only [Transaction.exec, hnext]
  rfl

end Alone

end Tpcc.Transaction

namespace Tpcc.Isolation

open Lib Store Transaction Import Serial

section Traced

/-- How a transaction began, and the times of its requests so far. -/
structure Origin where
  context : TTransactionContext
  type : ETransactionType
  draws : Draws context
  times : List Nat

def Origin.task (origin : Origin) : Transaction.Task Bool := origin.type.taskFunc origin.draws

/-- The same transaction, when it is called alone. -/
def Origin.call (origin : Origin) : Call :=
  ⟨origin.context, origin.type, origin.draws, .faultless origin.times⟩

/-- After the next request of the task; `RequestStopWithError` is none. -/
def Origin.next (origin : Origin) (now : Nat) : Transaction.Task Bool → Origin
  | .request .requestStopWithError _ => origin
  | _ => { origin with times := origin.times ++ [now] }

/-- The next request is `COMMIT`. -/
def commits : Transaction.Task Bool → Bool
  | .request .commit _ => true
  | _ => false

/-- A state of a run, with the calls of the transactions that have committed, in the order of their
commits. -/
structure Traced where
  state : State
  origins : Nat → Option Origin
  calls : List Call

namespace Traced

def start (db : Database) : Traced where
  state := .start db
  origins _ := none
  calls := []

variable (s : Traced)

/-- What is recorded of a request that leads to `state`. -/
def request (id now : Nat) (state : State) : Traced :=
  match s.state.txns id, s.origins id with
  | some t, some origin =>
    { state := state
      origins := Function.update s.origins id (some (origin.next now t.task))
      calls := if commits t.task then s.calls ++ [origin.call] else s.calls }
  | _, _ => { s with state := state }

def step (action : Action) : Traced :=
  match s.state.step action with
  | none => s
  | some state =>
    match action with
    | .start id context type draws =>
      { s with
        state := state
        origins := Function.update s.origins id (some ⟨context, type, draws, []⟩) }
    | .request id _ now => s.request id now state
    | .abort _ => { s with state := state }

def run (actions : List Action) : Traced := actions.foldl step s

variable {s : Traced}

theorem step_state (s : Traced) (action : Action) :
    (s.step action).state = (s.state.step action).getD s.state := by
  unfold step
  cases s.state.step action with
  | none => rfl
  | some state =>
    cases action with
    | start => rfl
    | abort => rfl
    | request id snapshot now =>
      dsimp only
      unfold request
      split
      · rfl
      · rfl

/-- What is recorded does not change the run. -/
theorem run_state (s : Traced) (actions : List Action) :
    (s.run actions).state = s.state.run actions := by
  induction actions generalizing s with
  | nil => rfl
  | cons action actions ih =>
    change ((s.step action).run actions).state = (((s.state.step action).getD s.state).run actions)
    rw [ih, step_state]

end Traced

end Traced

section Conditions

/-- The plain reads of some transactions, the Payments among them, see the latest committed state. -/
def Action.Latest (latestOf : Nat → Prop) : Action → Prop
  | .start id _ type _ => type = .payment → latestOf id
  | .request id snapshot _ => latestOf id → snapshot = 0
  | .abort _ => True

/-- A `SELECT … FOR UPDATE` of `new_order` returns a row. -/
def State.finds (s : State) : Action → Bool
  | .request id _ _ =>
    (s.txns id).all fun t =>
      match t.task with
      | .request (.query q) _ => q.found (q.eval (s.view t))
      | _ => true
  | _ => true

/-- In every step of the run. -/
def State.findsAll (s : State) : List Action → Bool
  | [] => true
  | action :: actions => s.finds action && State.findsAll ((s.step action).getD s) actions

theorem State.finds_query {s : State} {id snapshot now : Nat} {t : Txn} {q : Query}
    {next : q.Result → Transaction.Task Bool}
    (hfinds : s.finds (.request id snapshot now) = true) (ht : s.txns id = some t)
    (htask : t.task = .request (.query q) next) : q.found (q.eval (s.view t)) = true := by
  rw [State.finds, ht, Option.all_some, htask] at hfinds
  exact hfinds

end Conditions

/-- A transaction that changes rows: when the results of its reads last, it comes as far alone, from
whatever tables the others leave. -/
structure TxnRepeats (latest : Prop) (s : State) (id : Nat) (t : Txn) (origin : Origin)
    (locks : List Row) (last : Prop) : Prop where
  owned : ∀ r ∈ locks, s.owner r = some id
  uniform : Uniform t.task
  repeats : Repeats latest (fun _ _ => True) t.task ⟨statements t.entries, locks⟩ s.committed last
  reaches : last → ∀ db view, Relies locks s.committed db →
    applyStatements (statements t.entries) db = some view →
    Reaches origin.task db origin.times t.task view

/-- A transaction that has not ended. -/
def TxnSerial (latest : Prop) (s : State) (id : Nat) (t : Txn) (origin : Origin) : Prop :=
  (ReadOnly origin.task ∧ ReadOnly t.task ∧ t.entries = []) ∨
    ∃ locks last, TxnRepeats latest s id t origin locks last

/-- The committed tables are those that the calls lead to. -/
structure SerialInv (init : Database) (latestOf : Nat → Prop) (s : Traced) : Prop where
  committed : s.state.committed = runCalls s.calls init
  latest : s.state.snapshots[0]? = some s.state.committed
  statics : ∀ db ∈ s.state.snapshots, Isolation.statics db = Isolation.statics s.state.committed
  txns : ∀ id t, s.state.txns id = some t →
    ∃ origin, s.origins id = some origin ∧ TxnSerial (latestOf id) s.state id t origin

section Txn

variable {latest : Prop} {s s' : State} {id : Nat} {t : Txn} {origin : Origin} {locks : List Row}
  {last : Prop}

/-- What others do keeps it, when they leave the locks alone. -/
theorem TxnSerial.stable (h : TxnSerial latest s id t origin)
    (howner : ∀ r, s.owner r = some id → s'.owner r = some id)
    (hrelies : ∀ rows : List Row, (∀ r ∈ rows, s.owner r = some id) →
      Relies rows s.committed s'.committed) : TxnSerial latest s' id t origin := by
  rcases h with hread | ⟨locks, last, h⟩
  · exact .inl hread
  · have hrelies' := hrelies locks h.owned
    exact .inr ⟨locks, last, fun r hr => howner r (h.owned r hr), h.uniform,
      h.repeats.stable hrelies',
      fun hlast db view hrely => h.reaches hlast db view (hrelies'.trans hrely)⟩

/-- A read of a result that lasts, if the ones before it do. -/
theorem TxnRepeats.read {q : Query} {next : q.Result → Transaction.Task Bool} {result : q.Result}
    (rows : List Row) (h : TxnRepeats latest s id t origin locks last)
    (htask : t.task = .request (.query q) next)
    (hrepeats : Repeats latest (fun _ _ => True) (next result)
      ⟨statements t.entries, locks ++ rows⟩ s.committed
      (last ∧ Lasts q ⟨statements t.entries, locks ++ rows⟩ s.committed result)) (now : Nat) :
    TxnRepeats latest (s.lock id rows) id { t with task := next result } (origin.next now t.task)
      (locks ++ rows)
      (last ∧ Lasts q ⟨statements t.entries, locks ++ rows⟩ s.committed result) where
  owned r hr := owner_lock_self ((List.mem_append.1 hr).imp_left (h.owned r))
  uniform := by
    have huniform := h.uniform
    rw [htask] at huniform
    exact huniform.2 result
  repeats := hrepeats
  reaches hlast db view hrelies hview := by
    obtain ⟨hbefore, hresult⟩ := hlast
    have hreaches := h.reaches hbefore db view (hrelies.mono (List.subset_append_left _ _)) hview
    have huniform := h.uniform
    rw [htask] at hreaches huniform ⊢
    have hsame := huniform.1 _ _ (hresult db view hrelies hview)
    change Reaches origin.task db (origin.times ++ [now]) (next result) view
    rw [← hsame]
    exact hreaches.query now

theorem TxnSerial.selectForUpdate {q : Query} {next : q.Result → Transaction.Task Bool}
    (h : TxnSerial latest s id t origin) (hsound : Sound s.committed)
    (hview : applyStatements (statements t.entries) s.committed = some (s.view t))
    (htask : t.task = .request (.query q) next) (hupdate : q.forUpdate = true)
    (hfound : q.found (q.eval (s.view t)) = true) (now : Nat) :
    TxnSerial latest (s.lock id (q.rows (q.eval (s.view t)))) id
      { t with task := next (q.eval (s.view t)) } (origin.next now t.task) := by
  rcases h with ⟨horigin, hread, hentries⟩ | ⟨locks, last, h⟩
  · rw [htask] at hread ⊢
    exact .inl ⟨horigin, hread _, hentries⟩
  · have hrepeats := h.repeats
    rw [htask] at hrepeats
    have hquery := hrepeats s.committed (.refl _ hsound)
    rw [if_pos hupdate] at hquery
    exact .inr ⟨_, _, h.read _ htask (hquery (s.view t) hview hfound) now⟩

theorem TxnSerial.selectPlain {q : Query} {next : q.Result → Transaction.Task Bool}
    {seen : Database} (h : TxnSerial latest s id t origin) (hsound : Sound s.committed)
    (htask : t.task = .request (.query q) next) (hupdate : ¬q.forUpdate = true)
    (hitem : seen.item = s.committed.item)
    (hstart : statements t.entries = [] → Sound seen ∧ Later seen s.committed)
    (hlatest : latest → applyStatements (statements t.entries) s.committed = some seen)
    (now : Nat) :
    TxnSerial latest s id { t with task := next (q.eval seen) } (origin.next now t.task) := by
  rcases h with ⟨horigin, hread, hentries⟩ | ⟨locks, last, h⟩
  · rw [htask] at hread ⊢
    exact .inl ⟨horigin, hread _, hentries⟩
  · have hrepeats := h.repeats
    rw [htask] at hrepeats
    have hquery := hrepeats s.committed (.refl _ hsound)
    rw [if_neg hupdate] at hquery
    have hnext := @TxnRepeats.read _ s id t origin locks last q next (q.eval seen) [] h htask
    rw [List.append_nil, lock_nil] at hnext
    exact .inr ⟨locks, _, hnext (hquery seen hitem hstart hlatest) now⟩

theorem TxnSerial.modify {m : Modify} {next : Unit → Transaction.Task Bool} {now : Nat}
    {ws : List Write} {rows : List Row} (h : TxnSerial latest s id t origin)
    (hsound : Sound s.committed) (htask : t.task = .request (.modify m) next) :
    TxnSerial latest (s.lock id rows) id ⟨next (), t.entries ++ [⟨now, m, ws⟩]⟩
      (origin.next now t.task) := by
  rcases h with ⟨-, hread, -⟩ | ⟨locks, last, h⟩
  · rw [htask] at hread
    exact hread.elim
  · have hrepeats := h.repeats
    have huniform := h.uniform
    rw [htask] at hrepeats huniform
    have hstatements : statements (t.entries ++ [⟨now, m, ws⟩]) =
        statements t.entries ++ [(now, m)] := List.map_append
    refine .inr ⟨locks, last, fun r hr => owner_lock_self (.inl (h.owned r hr)), huniform, ?_, ?_⟩
    · rw [hstatements]
      exact hrepeats s.committed now (.refl _ hsound)
    · intro hlast db view hrelies hview
      rw [hstatements, applyStatements_append] at hview
      obtain ⟨before, hbefore, hlastStatement⟩ := Option.bind_eq_some_iff.1 hview
      obtain ⟨after, happly, hafter⟩ := Option.bind_eq_some_iff.1 hlastStatement
      obtain rfl := Option.some.inj hafter
      have hreaches := h.reaches hlast db before hrelies hbefore
      rw [htask] at hreaches ⊢
      exact hreaches.modify happly

theorem TxnSerial.stop {next : Unit → Transaction.Task Bool} (h : TxnSerial latest s id t origin)
    (hsound : Sound s.committed) (htask : t.task = .request .requestStopWithError next) (now : Nat) :
    TxnSerial latest s id { t with task := next () } (origin.next now t.task) := by
  rcases h with ⟨horigin, hread, hentries⟩ | ⟨locks, last, h⟩
  · rw [htask] at hread ⊢
    exact .inl ⟨horigin, hread, hentries⟩
  · have hrepeats := h.repeats
    have huniform := h.uniform
    rw [htask] at hrepeats huniform
    refine .inr ⟨locks, last, h.owned, huniform, hrepeats s.committed (.refl _ hsound), ?_⟩
    intro hlast db view hrelies hview
    have hreaches := h.reaches hlast db view hrelies hview
    rw [htask] at hreaches ⊢
    exact hreaches.stop

/-- A transaction that commits leaves the tables as it does alone, from the latest committed ones. -/
theorem TxnSerial.commit {next : Unit → Transaction.Task Bool}
    (h : TxnSerial latest s id t origin) (hsound : Sound s.committed)
    (hview : applyStatements (statements t.entries) s.committed = some (s.view t))
    (htask : t.task = .request .commit next) :
    (origin.call.run s.committed).durable = s.view t := by
  rcases h with ⟨horigin, -, hentries⟩ | ⟨locks, last, h⟩
  · have hsame : s.view t = s.committed := by
      rw [State.view, hentries]
      rfl
    rw [hsame]
    exact ReadOnly.exec horigin rfl
  · have hrepeats := h.repeats
    have hreaches := h.reaches
    rw [htask] at hrepeats hreaches
    exact (hreaches hrepeats s.committed (s.view t) (.refl _ hsound) hview).commit
      (taskFunc_closes origin.draws origin.type)

end Txn

section Run

variable {init : Database} {latestOf : Nat → Prop} {s : Traced} {s' : State} {id : Nat} {t : Txn}
  {origin : Origin}

namespace SerialInv

/-- A transaction goes on, and the committed tables stay. -/
theorem proceed {rows : List Row} (h : SerialInv init latestOf s) (hsound : Sound s.state.committed)
    (hfree : s.state.free id rows = true)
    (ht : TxnSerial (latestOf id) (s.state.lock id rows) id t origin) :
    SerialInv init latestOf
      { s with
        state := (s.state.lock id rows).proceed id t
        origins := Function.update s.origins id (some origin) } where
  committed := h.committed
  latest := h.latest
  statics := h.statics
  txns other t' ht' := by
    by_cases hid : other = id
    · subst hid
      obtain rfl : t = t' := by simpa [State.proceed] using ht'
      exact ⟨origin, Function.update_self _ _ _,
        ht.stable (fun _ hr => hr) fun rows _ => .refl rows hsound⟩
    · have hother : s.state.txns other = some t' := by
        simpa [State.proceed, State.lock, Function.update_of_ne hid] using ht'
      obtain ⟨origin', horigin', hserial⟩ := h.txns other t' hother
      refine ⟨origin', (Function.update_of_ne hid _ _).trans horigin', ?_⟩
      exact hserial.stable (fun r => owner_lock hfree hid) fun rows _ => .refl rows hsound

theorem finish {origins : Nat → Option Origin} (h : SerialInv init latestOf s)
    (hsound : Sound s.state.committed) (horigins : ∀ other ≠ id, origins other = s.origins other) :
    SerialInv init latestOf { s with state := s.state.finish id, origins := origins } where
  committed := h.committed
  latest := h.latest
  statics := h.statics
  txns other t' ht' := by
    by_cases hid : other = id
    · subst hid
      simp [State.finish] at ht'
    · have hother : s.state.txns other = some t' := by
        simpa [State.finish, Function.update_of_ne hid] using ht'
      obtain ⟨origin', horigin', hserial⟩ := h.txns other t' hother
      exact ⟨origin', (horigins other hid).trans horigin', hserial.stable
        (fun r => owner_finish hid) fun rows _ => .refl rows hsound⟩

theorem commit {next : Unit → Transaction.Task Bool} {now : Nat} (h : SerialInv init latestOf s)
    (hinv : Inv init s.state) (ht : s.state.txns id = some t)
    (htask : t.task = .request .commit next) (horigin : s.origins id = some origin)
    (hserial : TxnSerial (latestOf id) s.state id t origin) :
    SerialInv init latestOf
      { state := s.state.commit id t
        origins := Function.update s.origins id (some (origin.next now t.task))
        calls := s.calls ++ [origin.call] } := by
  obtain ⟨locks, hok⟩ := hinv.txns id t ht
  have hview := hok.view hinv.sound
  have hinv' := hinv.commit hok htask
  have hlater : Later s.state.committed (s.state.view t) :=
    (hinv'.snapshots _ (List.mem_cons_of_mem _ (List.mem_of_getElem? h.latest))).2
  have hstatics := statics_applyStatements hview
  refine ⟨?_, rfl, fun db hdb => ?_, fun other t' ht' => ?_⟩
  · change s.state.view t = runCalls (s.calls ++ [origin.call]) init
    rw [← hserial.commit hinv.sound hview htask, runCalls, List.foldl_append, h.committed]
    rfl
  · rcases List.mem_cons.1 hdb with rfl | hdb
    · rfl
    · exact (h.statics db hdb).trans hstatics.symm
  · by_cases hid : other = id
    · subst hid
      simp [State.commit, State.finish] at ht'
    · have hother : s.state.txns other = some t' := by
        simpa [State.commit, State.finish, Function.update_of_ne hid] using ht'
      obtain ⟨origin', horigin', hserial'⟩ := h.txns other t' hother
      refine ⟨origin', (Function.update_of_ne hid _ _).trans horigin', ?_⟩
      exact hserial'.stable (fun r => owner_finish hid) fun rows hrows =>
        ⟨⟨hok.agree hid hrows, hlater, hinv'.sound⟩, hstatics⟩

theorem request {snapshot now : Nat} (h : SerialInv init latestOf s) (hinv : Inv init s.state)
    (ht : s.state.txns id = some t) (hsnapshot : latestOf id → snapshot = 0)
    (hfinds : s.state.finds (.request id snapshot now) = true)
    (hstep : s.state.request id snapshot now t = some s') :
    SerialInv init latestOf (s.request id now s') := by
  obtain ⟨origin, horigin, hserial⟩ := h.txns id t ht
  obtain ⟨locks, hok⟩ := hinv.txns id t ht
  have hview := hok.view hinv.sound
  have hrequest : s.request id now s' =
      { state := s'
        origins := Function.update s.origins id (some (origin.next now t.task))
        calls := if commits t.task then s.calls ++ [origin.call] else s.calls } := by
    unfold Traced.request
    rw [ht, horigin]
  rw [hrequest]
  unfold State.request at hstep
  split at hstep
  · exact nomatch hstep
  · exact nomatch hstep
  · next q next htask =>
    have hcommits : commits t.task = false := by rw [htask]; rfl
    rw [hcommits]
    by_cases hupdate : q.forUpdate = true
    · rw [if_pos hupdate] at hstep
      dsimp only at hstep
      split at hstep
      · next hfree =>
        obtain rfl := Option.some.inj hstep
        exact h.proceed hinv.sound hfree
          (hserial.selectForUpdate hinv.sound hview htask hupdate (State.finds_query hfinds ht htask)
            now)
      · exact nomatch hstep
    · rw [if_neg hupdate] at hstep
      obtain ⟨db, hdb, rfl⟩ := Option.map_eq_some_iff.1 hstep
      have hmem := List.mem_of_getElem? hdb
      rw [← @lock_nil s.state id]
      refine h.proceed hinv.sound free_nil ?_
      rw [lock_nil]
      refine hserial.selectPlain hinv.sound htask hupdate ?_ (fun hstart => ?_) (fun hlatest => ?_)
        now
      · rw [item_applyWrites]
        exact congrArg Statics.items (h.statics db hmem)
      · rw [List.map_eq_nil_iff.1 hstart]
        exact hinv.snapshots db hmem
      · rw [hsnapshot hlatest, h.latest] at hdb
        obtain rfl := Option.some.inj hdb
        exact hview
  · next m next htask =>
    have hcommits : commits t.task = false := by rw [htask]; rfl
    rw [hcommits]
    split at hstep
    · exact nomatch hstep
    · next ws hwrites =>
      split at hstep
      · next hfree =>
        obtain rfl := Option.some.inj hstep
        exact h.proceed hinv.sound hfree (hserial.modify hinv.sound htask)
      · exact nomatch hstep
  · next next htask =>
    have hcommits : commits t.task = true := by rw [htask]; rfl
    rw [hcommits]
    obtain rfl := Option.some.inj hstep
    exact h.commit hinv ht htask horigin hserial
  · next next htask =>
    have hcommits : commits t.task = false := by rw [htask]; rfl
    rw [hcommits]
    obtain rfl := Option.some.inj hstep
    exact h.finish hinv.sound fun other hother => Function.update_of_ne hother _ _
  · next next htask =>
    have hcommits : commits t.task = false := by rw [htask]; rfl
    rw [hcommits]
    obtain rfl := Option.some.inj hstep
    rw [← @lock_nil s.state id]
    refine h.proceed hinv.sound free_nil ?_
    rw [lock_nil]
    exact hserial.stop hinv.sound htask now

theorem step {action : Action} (h : SerialInv init latestOf s) (hinv : Inv init s.state)
    (hlatest : action.Latest latestOf) (hfinds : s.state.finds action = true) :
    SerialInv init latestOf (s.step action) := by
  unfold Traced.step
  cases hstep : s.state.step action with
  | none => exact h
  | some s' =>
    cases action with
    | start id context type draws =>
      obtain ⟨-, rfl⟩ := step_start hstep
      rw [← @lock_nil s.state id]
      refine h.proceed hinv.sound free_nil ?_
      rcases taskFunc_repeats draws s.state.committed hlatest with hread | ⟨huniform, hrepeats⟩
      · exact .inl ⟨hread, hread, rfl⟩
      · refine .inr ⟨[], True, List.forall_mem_nil _, huniform, hrepeats, ?_⟩
        intro _ db view _ hview
        obtain rfl := Option.some.inj hview
        exact .start
    | request id snapshot now =>
      obtain ⟨t, ht, hrequest⟩ := Option.bind_eq_some_iff.1 hstep
      exact h.request hinv ht hlatest hfinds hrequest
    | abort id =>
      obtain ⟨t, -, rfl⟩ := Option.map_eq_some_iff.1 hstep
      exact h.finish hinv.sound fun _ _ => rfl

theorem start (init : Database) (latestOf : Nat → Prop) :
    SerialInv init latestOf (.start init) where
  committed := rfl
  latest := rfl
  statics db hdb := by
    obtain rfl := List.mem_singleton.1 hdb
    rfl
  txns _ _ ht := nomatch ht

theorem run {actions : List Action} (h : SerialInv init latestOf s) (hinv : Inv init s.state)
    (hlatest : ∀ action ∈ actions, action.Latest latestOf)
    (hfinds : s.state.findsAll actions = true) :
    SerialInv init latestOf (s.run actions) := by
  induction actions generalizing s with
  | nil => exact h
  | cons action actions ih =>
    obtain ⟨hfirst, hrest⟩ := List.forall_mem_cons.1 hlatest
    obtain ⟨hfind, hfinds⟩ := Bool.and_eq_true_iff.1 hfinds
    have hstate := Traced.step_state s action
    refine ih (h.step hinv hfirst hfind) ?_ hrest ?_
    · rw [hstate]
      cases hstep : s.state.step action with
      | none => exact hinv
      | some s' => exact hinv.step hstep
    · rw [hstate]
      exact hfinds

end SerialInv

/-- After an import, concurrent transactions leave the tables as those that commit do when they are
called one after the other, in the order of their commits: their commits are serializable.  The plain
reads of the Payments, which read `C_DATA`, see the latest committed state.  A Delivery finds a new
order in each district: of a district without new orders it locks nothing, and a NewOrder that commits
before it can insert one there. -/
theorem run_serializable (draws : ImportDraws) (warehouseCount : Nat) (latestOf : Nat → Prop)
    (actions : List Action) (hlatest : ∀ action ∈ actions, action.Latest latestOf)
    (hfinds : (State.start (importTables draws warehouseCount)).findsAll actions = true) :
    ((State.start (importTables draws warehouseCount)).run actions).committed =
      runCalls ((Traced.start (importTables draws warehouseCount)).run actions).calls
        (importTables draws warehouseCount) := by
  have hinit := importTables_sound draws warehouseCount
  have h := (SerialInv.start (importTables draws warehouseCount) latestOf).run (Inv.start hinit)
    hlatest hfinds
  rw [← h.committed, Traced.run_state]
  rfl

/-- A StockLevel that commits while a Payment holds the row of the warehouse, for which another
Payment waits. -/
def stockLevelBesidePayments : List Action :=
  [.start 0 sampleContext .payment (sampleDraws samplePercent), .request 0 0 5,
    .start 1 sampleContext .payment (sampleDraws samplePercent), .request 1 0 6,
    .start 2 sampleContext .stockLevel (sampleDraws samplePercent), .request 2 0 7, .request 2 0 7,
    .request 2 0 8]

theorem run_serializable_sample :
    ((Traced.start (importTables sampleImport 2)).run stockLevelBesidePayments).calls.map
        (fun call => (call.type, call.env.now 1)) = [(.stockLevel, 7)] ∧
      ((State.start (importTables sampleImport 2)).run stockLevelBesidePayments).committed =
        runCalls ((Traced.start (importTables sampleImport 2)).run stockLevelBesidePayments).calls
          (importTables sampleImport 2) := by
  refine ⟨by decide +kernel, run_serializable sampleImport 2 (fun _ => True) _ ?_
    (by decide +kernel)⟩
  simp [stockLevelBesidePayments, Action.Latest]

end Run

end Tpcc.Isolation
