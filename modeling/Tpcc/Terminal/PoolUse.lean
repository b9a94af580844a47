import Tpcc.Db.Exclusive
import Tpcc.Terminal.Token

/-! The connection pool under the terminals of `RunSync`: a connection has one place, and a terminal
with a slot finds a free one. -/

namespace Tpcc.Terminal

open Lib TaskQueue Db

/-- What a holder is to the guard of its terminal. -/
def Phase.ofHolder {κ : Type} : Holder κ → Phase
  | .none => .none
  | .session _ _ => .session
  | .releasing _ => .releasing

theorem Phase.conn?_isSome {κ : Type} (holder : Holder κ) :
    holder.conn?.isSome = true ↔ Phase.ofHolder holder ≠ .none := by
  cases holder <;> simp [Holder.conn?, Phase.ofHolder]

/-- The guard's phase after an action of the pool's user. -/
def Phase.after {ι : Type} : Db.Action ι → Phase
  | .acquireSession _ | .operate _ _ => .session
  | .releaseConnection _ => .releasing
  | .pushFree _ | .destroySession _ | .cancelAll => .none

/-- The user that an action of the pool is for. -/
def user {ι : Type} : Db.Action ι → Option ι
  | .acquireSession i | .operate i _ | .releaseConnection i | .pushFree i | .destroySession i =>
    some i
  | .cancelAll => none

theorem step_holder {κ ι : Type} [DecidableEq κ] [DecidableEq ι] {p p' : ObConnectionPool κ ι}
    {a : Db.Action ι} {i : ι} (hi : user a = some i) (hstep : p.step a = some p') :
    ∃ holder, p'.holder = Function.update p.holder i holder ∧
      Phase.ofHolder holder = Phase.after a := by
  cases a with
  | acquireSession _ | operate _ _ | releaseConnection _ | pushFree _ | destroySession _ =>
    cases hi
    simp only [ObConnectionPool.step] at hstep
    split at hstep
    · cases hstep
      exact ⟨_, rfl, rfl⟩
    · cases hstep
  | cancelAll => cases hi

/-- The connections that `RunSync` opens. -/
def RunConfig.connections (cfg : RunConfig) : List Nat :=
  if cfg.needsConnections then List.range cfg.poolSize else []

theorem RunConfig.connections_nodup (cfg : RunConfig) : cfg.connections.Nodup := by
  unfold connections
  split
  · exact List.nodup_range
  · exact List.nodup_nil

section Invariant

variable {cfg : RunConfig}

/-- The cycle of each terminal: its guard is where its code is, and it has asked for one slot more
than it has given back exactly inside a cycle. -/
structure Ledger (cfg : RunConfig) (s : State cfg) : Prop where
  pool : s.client.pool.Exclusive cfg.connections
  phase : cfg.needsConnections = true → ∀ id,
    Phase.ofHolder (s.client.pool.holder id) = (s.client.control id).phase
  requested : ∀ id, s.history.requested.count ⟨id, .terminal⟩ =
    s.history.released.count ⟨id, .terminal⟩ + (s.client.control id).inCycle.toNat
  threw : s.history.threw = []

namespace Ledger

variable {s s' : State cfg}

/-- The rule for a step that changes terminal `id`. -/
theorem update (h : Ledger cfg s) {id : Fin cfg.terminalCount} {control : Control}
    (hcontrol : s'.client.control = Function.update s.client.control id control)
    (hpool : s'.client.pool.Exclusive cfg.connections)
    (hholder : ∀ b, b ≠ id → s'.client.pool.holder b = s.client.pool.holder b)
    (hphase : cfg.needsConnections = true →
      Phase.ofHolder (s'.client.pool.holder id) = control.phase)
    (hcounts : ∀ b, b ≠ id →
      s'.history.requested.count ⟨b, .terminal⟩ = s.history.requested.count ⟨b, .terminal⟩ ∧
        s'.history.released.count ⟨b, .terminal⟩ = s.history.released.count ⟨b, .terminal⟩)
    (hself : s'.history.requested.count ⟨id, .terminal⟩ =
      s'.history.released.count ⟨id, .terminal⟩ + control.inCycle.toNat)
    (hthrew : s'.history.threw = s.history.threw) : Ledger cfg s' where
  pool := hpool
  phase := by
    intro hneeds b
    rw [hcontrol]
    by_cases hb : b = id
    · subst hb
      rw [Function.update_self]
      exact hphase hneeds
    · rw [Function.update_of_ne hb, hholder b hb]
      exact h.phase hneeds b
  requested := by
    intro b
    rw [hcontrol]
    by_cases hb : b = id
    · subst hb
      rw [Function.update_self]
      exact hself
    · rw [Function.update_of_ne hb, (hcounts b hb).1, (hcounts b hb).2]
      exact h.requested b
  threw := hthrew.trans h.threw

/-- A step of terminal `id` with a step of the pool for it. -/
theorem withPool (h : Ledger cfg s) {id : Fin cfg.terminalCount} {control : Control}
    {client : Terminals cfg.terminalCount} {a : Db.Action (Fin cfg.terminalCount)}
    (hcontrol : client.control = Function.update s.client.control id control)
    (hi : user a = some id) (ha : ∀ i, a ≠ .destroySession i)
    (hstep : s.client.pool.step a = some client.pool) (hphase : control.phase = Phase.after a)
    (hcycle : control.inCycle = (s.client.control id).inCycle) : Ledger cfg (s.setClient client) := by
  obtain ⟨holder, hholder, hafter⟩ := step_holder hi hstep
  refine h.update hcontrol (h.pool.step cfg.connections_nodup ha hstep) (fun b hb => ?_)
    (fun _ => ?_) (fun _ _ => ⟨rfl, rfl⟩) ?_ rfl
  · exact (congrFun hholder b).trans (Function.update_of_ne hb ..)
  · rw [hphase, ← hafter]
    exact congrArg Phase.ofHolder ((congrFun hholder id).trans (Function.update_self ..))
  · rw [hcycle]
    exact h.requested id

/-- A step of terminal `id` without the pool. -/
theorem plain (h : Ledger cfg s) (id : Fin cfg.terminalCount) (control : Control)
    (hcontrol : s'.client.control = Function.update s.client.control id control)
    (hpool : s'.client.pool = s.client.pool)
    (hphase : cfg.needsConnections = true → control.phase = (s.client.control id).phase)
    (hcycle : control.inCycle = (s.client.control id).inCycle)
    (hrequested : s'.history.requested = s.history.requested)
    (hreleased : s'.history.released = s.history.released)
    (hthrew : s'.history.threw = s.history.threw) : Ledger cfg s' := by
  refine h.update hcontrol (by rw [hpool]; exact h.pool) (fun b _ => by rw [hpool])
    (fun hneeds => ?_) (fun _ _ => by rw [hrequested, hreleased]; exact ⟨rfl, rfl⟩) ?_ hthrew
  · rw [hpool, hphase hneeds]
    exact h.phase hneeds id
  · rw [hrequested, hreleased, hcycle]
    exact h.requested id

/-- A step that the terminals do not notice. -/
theorem still (h : Ledger cfg s) (hclient : s'.client = s.client)
    (hrequested : s'.history.requested = s.history.requested)
    (hreleased : s'.history.released = s.history.released)
    (hthrew : s'.history.threw = s.history.threw) : Ledger cfg s' where
  pool := by
    rw [hclient]
    exact h.pool
  phase := by
    rw [hclient]
    exact h.phase
  requested := by
    rw [hclient, hrequested, hreleased]
    exact h.requested
  threw := hthrew.trans h.threw

theorem own (h : Ledger cfg s) {client : Terminals cfg.terminalCount}
    (hmove : OwnMove cfg s.client client) : Ledger cfg (s.setClient client) := by
  cases hmove with
  | requestStop => exact ⟨h.pool, h.phase, h.requested, h.threw⟩
  | cancelAll pool hpool =>
    have hpool' := h.pool.step cfg.connections_nodup (by simp) hpool
    cases hpool
    exact ⟨hpool', h.phase, h.requested, h.threw⟩
  | advance t id hid hmove =>
    cases hmove with
    | plain control hquiet hphase => exact h.plain _ _ rfl rfl hphase hquiet.inCycle rfl rfl rfl
    | acquire k pool hcontrol hpool =>
      exact h.withPool rfl rfl (by simp) hpool rfl (by rw [hcontrol]; rfl)
    | releaseConnection k outcome pool hcontrol hpool =>
      exact h.withPool rfl rfl (by simp) hpool rfl (by rw [hcontrol]; rfl)
    | pushFree k outcome pool hcontrol hpool =>
      exact h.withPool rfl rfl (by simp) hpool rfl (by rw [hcontrol]; rfl)
  | complete id op k x x' suspended pool hcontrol hx hpool =>
    exact h.withPool rfl rfl (by simp) hpool rfl (by rw [hcontrol]; rfl)

/-- A terminal enters `IncInflight`. -/
theorem request (h : Ledger cfg s) {id : Fin cfg.terminalCount}
    (hcontrol : s.client.control id = .running .request)
    (hcontrol' : s'.client.control = Function.update s.client.control id (.running .requesting))
    (hpool : s'.client.pool = s.client.pool)
    (hrequested : s'.history.requested = s.history.requested ++ [⟨id, .terminal⟩])
    (hreleased : s'.history.released = s.history.released)
    (hthrew : s'.history.threw = s.history.threw) : Ledger cfg s' := by
  refine h.update hcontrol' (by rw [hpool]; exact h.pool) (fun b _ => by rw [hpool])
    (fun hneeds => ?_) (fun b hb => ?_) ?_ hthrew
  · rw [hpool, h.phase hneeds id, hcontrol]
    rfl
  · rw [hrequested, hreleased]
    simp [hb.symm]
  · have hold := h.requested id
    rw [hcontrol] at hold
    rw [hrequested, hreleased, List.count_append, hold]
    simp [Control.inCycle, Place.inCycle]

/-- A terminal leaves `DecInflight`. -/
theorem release (h : Ledger cfg s) {id : Fin cfg.terminalCount} {after : AfterRelease}
    (hcontrol : s.client.control id = .running (.release after))
    (hcontrol' : s'.client.control = Function.update s.client.control id (after.control cfg))
    (hpool : s'.client.pool = s.client.pool)
    (hrequested : s'.history.requested = s.history.requested)
    (hreleased : s'.history.released = s.history.released ++ [⟨id, .terminal⟩])
    (hthrew : s'.history.threw = s.history.threw) : Ledger cfg s' := by
  have hafter : (after.control cfg).phase = .none ∧ (after.control cfg).inCycle = false := by
    cases after with
    | stop => exact ⟨rfl, rfl⟩
    | fatal => exact ⟨rfl, rfl⟩
    | next => cases hdelays : cfg.delays <;> simp [AfterRelease.control, hdelays, Control.phase,
        Place.phase, Control.inCycle, Place.inCycle]
  refine h.update hcontrol' (by rw [hpool]; exact h.pool) (fun b _ => by rw [hpool])
    (fun hneeds => ?_) (fun b hb => ?_) ?_ hthrew
  · rw [hpool, h.phase hneeds id, hcontrol, hafter.1]
    rfl
  · rw [hrequested, hreleased]
    simp [hb.symm]
  · have hold := h.requested id
    rw [hcontrol] at hold
    rw [hrequested, hreleased, List.count_append, hold, hafter.2]
    simp [Control.inCycle, Place.inCycle]

/-- A call stores a handle of terminal `id`. -/
theorem threadSafe (h : Ledger cfg s) (htoken : Token cfg s) {thread : Option Nat}
    {id : Fin cfg.terminalCount} {role : Role} (hsuspends : Suspends (s.client.control id) role)
    (hmove : ThreadSafeMove cfg.queue (terminals cfg) s thread ⟨id, role⟩ id.val s') :
    Ledger cfg s' := by
  cases hmove with
  | push _ =>
    exact h.plain _ _ rfl rfl (fun _ => hsuspends.phase) hsuspends.inCycle rfl rfl rfl
  | full hfull =>
    have hroom := htoken.external_push hsuspends
    exact absurd hfull (of_decide_eq_false hroom)

theorem call (h : Ledger cfg s) (htoken : Token cfg s) {t : Nat}
    {back : Back (Handle cfg.terminalCount)} {c : Call (Handle cfg.terminalCount)}
    {id : Fin cfg.terminalCount} (hcall : TerminalCall (s.client.control id) id c)
    (hmove : CallMove cfg.queue (terminals cfg) (s.setClient (s.client.entering t id c)) t back c
      s') : Ledger cfg s' := by
  cases hcall with
  | asyncSleep role hsuspends =>
    cases hmove with
    | asyncSleep _ _ =>
      exact h.plain _ _ rfl rfl (fun _ => hsuspends.phase) hsuspends.inCycle rfl rfl rfl
  | taskReadyThreadSafe role hsuspends =>
    cases hmove with
    | threadSafe _ _ hmove => exact h.threadSafe htoken hsuspends hmove
  | decInflight after hcontrol =>
    cases hmove with
    | decInflight _ =>
      have hclient := release_client cfg t hcontrol
      refine h.release hcontrol ?_ ?_ rfl rfl rfl
      · exact congrArg Terminals.control hclient
      · exact (congrArg Terminals.pool hclient).trans rfl
  | incInflight hcontrol =>
    cases hmove with
    | incTake _ _ _ => exact h.request hcontrol rfl rfl rfl rfl rfl
    | incExceed _ _ _ => exact h.request hcontrol rfl rfl rfl rfl rfl

/-- A thread resumes a handle that is stored there. -/
theorem resume (h : Ledger cfg s) (htoken : Token cfg s) {t : Nat} (ht : t < cfg.threadCount)
    (hpoint : ∀ back inside, s.q.thread t ≠ .running back inside)
    {a : Handle cfg.terminalCount} (hmem : a ∈ s.q.stored t)
    (hclient : s'.client = resumed s.client t a)
    (hrequested : s'.history.requested = s.history.requested)
    (hreleased : s'.history.released = s.history.released)
    (hthrew : s'.history.threw = s.history.threw) : Ledger cfg s' := by
  obtain ⟨-, -, control, -, -, hcycle, hphase, hresumed⟩ :=
    htoken.resumed_eq ht (htoken.idle hpoint) hmem
  rw [hresumed] at hclient
  exact h.plain a.id control (by rw [hclient]) (by rw [hclient]) (fun _ => hphase) hcycle hrequested
    hreleased hthrew

/-- A step of a queue thread. -/
theorem loop (h : Ledger cfg s) (htoken : Token cfg s) {t : Nat} (pick : Option Nat)
    (ht : t < cfg.threadCount) (hmove : LoopMove cfg.queue (terminals cfg) s t s') :
    Ledger cfg s' := by
  cases hmove with
  | batchResume b rest hpoint _ =>
    exact h.resume htoken ht (by simp [hpoint])
      (by simp [TTaskQueue.stored, hpoint, Point.held]) rfl rfl rfl rfl
  | internalResume b rest hpoint hready =>
    exact h.resume htoken ht (by simp [hpoint])
      (by simp [TTaskQueue.stored, TPerThreadContext.held, hready]) rfl rfl rfl rfl
  | incAdmit back b hint prev hpoint hprev =>
    obtain ⟨-, -, -, hcontrol⟩ := htoken.inside t ht b hint true (by
      simp [hpoint, Point.request, hprev])
    exact h.plain b.id (.running .admitted) rfl rfl (fun _ => by rw [hcontrol]; rfl)
      (by rw [hcontrol]; rfl) rfl rfl rfl
  | incRefuse back b hint hpoint _ =>
    obtain ⟨-, -, -, hcontrol⟩ := htoken.inside t ht b hint false (by
      simp [hpoint, Point.request])
    refine h.plain b.id ((s.client.control b.id).suspended .terminal) rfl rfl (fun _ => ?_) ?_ rfl
      rfl rfl
    · rw [hcontrol]
      rfl
    · rw [hcontrol]
      rfl
  | incThrow back b hint hpoint hfull =>
    have hroom := htoken.loop_push ht pick
    simp only [pushFails, hpoint] at hroom
    exact absurd hfull (of_decide_eq_false hroom)
  | inflightAdd hpoint =>
    obtain ⟨hclient, admitted, hhistory⟩ := inflightFetchAdd_rest (c := cfg.queue) s t
    exact h.still hclient (by rw [hhistory]) (by rw [hhistory]) (by rw [hhistory])
  | _ => exact h.still rfl rfl rfl rfl

theorem step (h : Ledger cfg s) (htoken : Token cfg s)
    {action : TaskQueue.Action (Handle cfg.terminalCount) (Step cfg.terminalCount)}
    (hmove : Move cfg.queue (terminals cfg) s action s') : Ledger cfg s' := by
  cases hmove with
  | loop t pick ht hmove => exact h.loop htoken pick ht hmove
  | call t c back state ht _ hclient hmove =>
    obtain ⟨id, -, hcall, rfl⟩ := call_move hclient
    exact h.call htoken hcall hmove
  | callOutside a threadHint state hclient hmove =>
    obtain ⟨id, role⟩ := a
    have hcall : Terminal.call cfg s.client none (.taskReadyThreadSafe ⟨id, role⟩ threadHint) =
        some state := hclient
    obtain ⟨rfl, rfl, -, hsuspends⟩ := callOutside_move hcall
    exact h.threadSafe htoken hsuspends hmove
  | ret t back state ht _ hclient =>
    simp only [terminals] at hclient
    split at hclient
    · cases hclient
      exact ⟨h.pool, h.phase, h.requested, h.threw⟩
    · cases hclient
  | own i state hclient => exact h.own (own_move hclient)
  | wakeup => exact ⟨h.pool, h.phase, h.requested, h.threw⟩
  | requestStop _ => exact ⟨h.pool, h.phase, h.requested, h.threw⟩
  | join hmove => cases hmove <;> exact ⟨h.pool, h.phase, h.requested, h.threw⟩

theorem start (cfg : RunConfig) : Ledger cfg (System.start (Terminals.start cfg)) where
  pool := .new _
  phase := fun _ _ => rfl
  requested := fun _ => rfl
  threw := rfl

end Ledger

/-- A terminal that does not ask for a slot waits for none. -/
theorem Token.not_pending {s : State cfg} (h : Token cfg s) {id : Fin cfg.terminalCount}
    (hasks : (s.client.control id).asks = false) (role : Role) :
    s.q.pendingCount cfg.queue ⟨id, role⟩ = 0 ∧ s.q.waitingCount cfg.queue ⟨id, role⟩ = 0 := by
  obtain ⟨hrequests, hwaits⟩ := h.not_asking hasks
  have hwaiting : ∀ t < cfg.threadCount, (⟨id, role⟩ : Handle cfg.terminalCount) ∉ s.q.waiting t :=
    fun t ht hmem => hwaits t ht _ hmem rfl
  constructor
  · refine Finset.sum_eq_zero fun t ht => ?_
    have ht' := Finset.mem_range.1 ht
    have hrejecting : (⟨id, role⟩ : Handle cfg.terminalCount) ∉
        (s.q.thread t).rejecting cfg.queue := by
      intro hmem
      obtain ⟨threadHint, slot, hrequest⟩ := Point.request_of_rejecting hmem
      exact hrequests t ht' _ threadHint slot hrequest rfl
    have hunclaimed : (⟨id, role⟩ : Handle cfg.terminalCount) ∉ s.q.unclaimed cfg.queue t := by
      intro hmem
      refine hwaiting t ht' ?_
      rw [← s.q.claimed_append_unclaimed]
      exact List.mem_append_right _ hmem
    simp only [List.count_eq_zero.2 hrejecting, List.count_eq_zero.2 hunclaimed, Nat.add_zero]
  · exact Finset.sum_eq_zero fun t ht => List.count_eq_zero.2 (hwaiting t (Finset.mem_range.1 ht))

/-- The invariant of `RunSync` before its threads are stopped. -/
structure Running (cfg : RunConfig) (s : State cfg) : Prop where
  token : Token cfg s
  ledger : Ledger cfg s
  admission : Admission cfg.queue s.q s.history

namespace Running

variable {s s' : State cfg}

/-- The slots of a terminal that does not wait for one. -/
theorem slots (h : Running cfg s) (hjoin : s.q.join = .notCalled) {id : Fin cfg.terminalCount}
    (hasks : (s.client.control id).asks = false) :
    s.history.admitted.count ⟨id, .terminal⟩ =
      s.history.released.count ⟨id, .terminal⟩ + (s.client.control id).inCycle.toNat := by
  obtain ⟨hpending, -⟩ := h.token.not_pending hasks .terminal
  have hrequests := h.admission.requests (.inl hjoin) ⟨id, .terminal⟩
  rw [hpending, h.ledger.threw, h.ledger.requested id, List.count_nil] at hrequests
  omega

/-- The terminals ask for one slot at a time and give back what they have. -/
theorem disciplined (h : Running cfg s) (hjoin : s.q.join = .notCalled)
    {action : TaskQueue.Action (Handle cfg.terminalCount) (Step cfg.terminalCount)}
    (hmove : Move cfg.queue (terminals cfg) s action s') : Disciplined cfg.queue s action := by
  cases hmove with
  | call t c back state ht _ hclient _ =>
    obtain ⟨id, -, hcall, -⟩ := call_move hclient
    cases hcall with
    | incInflight hcontrol =>
      have hasks : (s.client.control id).asks = false := by
        rw [hcontrol]
        rfl
      obtain ⟨hpending, hwaiting⟩ := h.token.not_pending hasks .terminal
      have hslots := h.slots hjoin hasks
      rw [hcontrol] at hslots
      exact ⟨hwaiting, hpending, hslots⟩
    | decInflight after hcontrol =>
      have hasks : (s.client.control id).asks = false := by
        rw [hcontrol]
        rfl
      obtain ⟨-, hwaiting⟩ := h.token.not_pending hasks .terminal
      have hslots := h.slots hjoin hasks
      rw [hcontrol] at hslots
      exact ⟨hwaiting, by rw [hslots]; exact Nat.lt_succ_self _⟩
    | _ => trivial
  | _ => trivial

/-- The terminals that hold a connection. -/
def holders (s : State cfg) : List (Fin cfg.terminalCount) :=
  (List.finRange cfg.terminalCount).filter fun id => (s.client.pool.holder id).conn?.isSome

theorem mem_holders {id : Fin cfg.terminalCount} :
    id ∈ holders s ↔ Phase.ofHolder (s.client.pool.holder id) ≠ .none := by
  rw [holders, List.mem_filter, Phase.conn?_isSome]
  exact and_iff_right (List.mem_finRange id)

/-- Every checked-out connection has a terminal of its own. -/
theorem checkedOut_le (h : Ledger cfg s) :
    s.client.pool.checkedOut.length ≤ (holders s).length := by
  have hnodup : s.client.pool.checkedOut.Nodup :=
    (List.nodup_append.1 (h.pool.nodup cfg.connections_nodup)).2.1
  have hsub : s.client.pool.checkedOut ⊆
      (holders s).filterMap fun id => (s.client.pool.holder id).conn? := by
    intro conn hmem
    obtain ⟨id, hid⟩ := (h.pool.checkedOut_iff conn).1 hmem
    refine List.mem_filterMap.2 ⟨id, ?_, hid⟩
    rw [mem_holders, ← Phase.conn?_isSome, hid]
    rfl
  exact (hnodup.subperm hsub).length_le.trans (List.length_filterMap_le _ _)

/-- A terminal that holds a connection has a slot. -/
theorem inCycle_of_phase {control : Control} (h : control.phase ≠ .none) :
    control.asks = false ∧ control.inCycle = true := by
  cases control with
  | queued p => cases p <;> first | exact ⟨rfl, rfl⟩ | exact absurd rfl h
  | running p => cases p <;> first | exact ⟨rfl, rfl⟩ | exact absurd rfl h
  | transaction k x suspended => exact ⟨rfl, rfl⟩
  | handing k outcome => exact ⟨rfl, rfl⟩
  | created => exact absurd rfl h
  | done => exact absurd rfl h

/-- Terminals with a slot are no more than there are connections. -/
theorem inCycle_length_le (h : Running cfg s) (hjoin : s.q.join = .notCalled)
    {ids : List (Fin cfg.terminalCount)} (hnodup : ids.Nodup)
    (hcycle : ∀ id ∈ ids,
      (s.client.control id).asks = false ∧ (s.client.control id).inCycle = true) :
    ids.length ≤ cfg.poolSize := by
  have hterminals := hnodup.length_le_card
  rw [Fintype.card_fin] at hterminals
  have hinflight : ids.length + s.history.released.length ≤ s.history.admitted.length := by
    rw [← List.length_map (fun b => (⟨b, .terminal⟩ : Handle cfg.terminalCount))]
    refine length_add_le_of_count_lt (hnodup.map fun a b hab => congrArg Handle.id hab) ?_
      fun a => ?_
    · intro a ha
      obtain ⟨b, hb, rfl⟩ := List.mem_map.1 ha
      rw [h.slots hjoin (hcycle b hb).1, (hcycle b hb).2]
      exact Nat.lt_succ_self _
    · have hclaimed := h.admission.claimed_le a
      omega
  have hbound : s.history.admitted.length ≤
      s.history.released.length + cfg.maxInflight.toNat := h.admission.bound
  rw [RunConfig.poolSize]
  omega

/-- A terminal that is about to acquire a session has a slot and no connection, so that the others
leave it one. -/
theorem free_ne_nil (h : Running cfg s) (hneeds : cfg.needsConnections = true)
    (hjoin : s.q.join = .notCalled) {id : Fin cfg.terminalCount} {k : Nat}
    (hcontrol : s.client.control id = .running (.attempt k)) : s.client.pool.free ≠ [] := by
  have hnot : id ∉ holders s := by
    rw [mem_holders, h.ledger.phase hneeds, hcontrol]
    exact fun hne => hne rfl
  have hslots : (id :: holders s).length ≤ cfg.poolSize := by
    refine h.inCycle_length_le hjoin
      (List.nodup_cons.2 ⟨hnot, (List.nodup_finRange _).filter _⟩) fun b hb => ?_
    rcases List.mem_cons.1 hb with rfl | hmem
    · rw [hcontrol]
      exact ⟨rfl, rfl⟩
    · rw [mem_holders, h.ledger.phase hneeds] at hmem
      exact inCycle_of_phase hmem
  have hout := checkedOut_le h.ledger
  have hsize := h.ledger.pool.length_eq
  rw [RunConfig.connections, if_pos hneeds, List.length_range] at hsize
  rw [List.length_cons] at hslots
  intro hfree
  rw [hfree, List.length_nil] at hsize
  omega

theorem acquires (h : Running cfg s) (hneeds : cfg.needsConnections = true)
    (hjoin : s.q.join = .notCalled) {t : Nat} {id : Fin cfg.terminalCount} {k : Nat}
    (hactive : s.client.active t = some id)
    (hcontrol : s.client.control id = .running (.attempt k)) :
    ∃ s', (lts cfg).step s (.own (.advance t)) s' := by
  have hnone : s.client.pool.holder id = .none := by
    have hphase := h.ledger.phase hneeds id
    rw [hcontrol] at hphase
    cases hholder : s.client.pool.holder id with
    | none => rfl
    | _ =>
      rw [hholder] at hphase
      cases hphase
  obtain ⟨conn, rest, hfree⟩ := List.exists_cons_of_ne_nil (h.free_ne_nil hneeds hjoin hcontrol)
  have hown : ∃ client, own cfg s.client (.advance t) = some client := by
    simp [own, advance, hactive, hcontrol, hneeds, Terminals.withPool, ObConnectionPool.step, hnone,
      hfree]
  obtain ⟨client, hclient⟩ := hown
  exact ⟨s.setClient client, congrArg (Option.map s.setClient) hclient⟩

end Running

/-- A terminal and its transaction each have one frame. -/
theorem card_handle (cfg : RunConfig) : Fintype.card (Handle cfg.terminalCount) ≤ 2 ^ 60 := by
  have hcard : Fintype.card (Handle cfg.terminalCount) = cfg.terminalCount * 2 := by
    rw [Fintype.ofEquiv_card, Fintype.card_prod, Fintype.card_fin]
    rfl
  have hle := cfg.terminals_le
  rw [hcard, RunConfig.terminalCount]
  omega

/-- What the use of the pool says of a state: each connection is free once, or checked out once and
held by one terminal; the session or release that holds it is the one in its terminal's code; and a
terminal about to call `AcquireSession` finds a free connection and goes on. -/
structure PoolUse (cfg : RunConfig) (s : State cfg) : Prop where
  place : ∀ conn < cfg.poolSize,
    (s.client.pool.free.count conn = 1 ∧ s.client.pool.checkedOut.count conn = 0 ∧
      ∀ id, (s.client.pool.holder id).conn? ≠ some conn) ∨
    (s.client.pool.free.count conn = 0 ∧ s.client.pool.checkedOut.count conn = 1 ∧
      ∃! id, (s.client.pool.holder id).conn? = some conn)
  size : s.client.pool.free.length + s.client.pool.checkedOut.length = cfg.poolSize
  phase : ∀ id, Phase.ofHolder (s.client.pool.holder id) = (s.client.control id).phase
  free_ne_nil : ∀ id k, s.client.control id = .running (.attempt k) → s.client.pool.free ≠ []
  acquires : ∀ t id k, s.client.active t = some id → s.client.control id = .running (.attempt k) →
    ∃ s', (lts cfg).step s (.own (.advance t)) s'

theorem run_running {s₀ s : State cfg}
    {actions : List (TaskQueue.Action (Handle cfg.terminalCount) (Step cfg.terminalCount))}
    (hpos : 0 < cfg.maxInflight) (hinit : (lts cfg).init s₀) (hrun : (lts cfg).Run s₀ actions s)
    (hstop : s.q.stopRequested = false) : s.q.join = .notCalled ∧ Running cfg s := by
  have hstart : Running cfg (.start (.start cfg)) := ⟨.start cfg, .start cfg, start_admission _⟩
  refine (run_until_stop (I := fun s => s.q.Settled cfg.queue ∧ Running cfg s)
    ⟨start_settled _, hstart⟩ ?_ hinit hrun hstop).imp_right And.right
  rintro s action s' ⟨hsettled, h⟩ hjoin hstop hstop' hstep
  have hmove := step_move hstep
  exact ⟨step_settled hsettled hstep, h.token.step hjoin hstop hstop' hmove,
    h.ledger.step h.token hmove, h.admission.step (card_handle cfg)
      (UInt64.ne_of_lt hpos).symm hsettled (h.disciplined hjoin hmove) hstep⟩

/-- Until the queue's threads are stopped, every connection has one place and no terminal waits for
one. -/
theorem run_pool_use {s₀ s : State cfg}
    {actions : List (TaskQueue.Action (Handle cfg.terminalCount) (Step cfg.terminalCount))}
    (hneeds : cfg.needsConnections = true) (hpos : 0 < cfg.maxInflight)
    (hinit : (lts cfg).init s₀) (hrun : (lts cfg).Run s₀ actions s)
    (hstop : s.q.stopRequested = false) : PoolUse cfg s := by
  obtain ⟨hjoin, h⟩ := run_running hpos hinit hrun hstop
  have hconns : cfg.connections = List.range cfg.poolSize := if_pos hneeds
  refine ⟨fun conn hconn => ?_, ?_, h.ledger.phase hneeds,
    fun id k hcontrol => h.free_ne_nil hneeds hjoin hcontrol,
    fun t id k hactive hcontrol => h.acquires hneeds hjoin hactive hcontrol⟩
  · refine h.ledger.pool.place cfg.connections_nodup ?_
    rw [hconns]
    exact List.mem_range.2 hconn
  · rw [h.ledger.pool.length_eq, hconns, List.length_range]

end Invariant

/-- Terminal 0 takes the slot and its turn comes to acquire a session. -/
def firstAttempt : List (TaskQueue.Action (Handle oneWarehouse.terminalCount)
    (Step oneWarehouse.terminalCount)) :=
  [.call none (.taskReadyThreadSafe ⟨firstTerminal, .terminal⟩ 0), .loop 0 none, .loop 0 none,
    .own (.advance 0), .call (some 0) (.incInflight ⟨firstTerminal, .terminal⟩ 0), .loop 0 none,
    .own (.advance 0)]

theorem run_pool_use_first_attempt :
    ∃ s, (lts oneWarehouse).Run (.start (.start oneWarehouse)) firstAttempt s ∧
      s.client.control ⟨0, by decide⟩ = .running (.attempt 0) ∧ PoolUse oneWarehouse s := by
  let next := fun (s : State oneWarehouse) a => step oneWarehouse.queue (terminals oneWarehouse) s a
  let s := (firstAttempt.foldlM next (.start (.start oneWarehouse))).get (by decide +kernel)
  have hrun : (lts oneWarehouse).Run (.start (.start oneWarehouse)) firstAttempt s :=
    Lts.run_of_foldlM (Option.some_get _).symm
  exact ⟨s, hrun, by decide +kernel,
    run_pool_use (by decide) (by decide) ⟨.start oneWarehouse, rfl, rfl⟩ hrun (by decide +kernel)⟩

end Tpcc.Terminal
