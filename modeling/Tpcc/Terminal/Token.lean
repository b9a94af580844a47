import Tpcc.Terminal.Client

/-! Scheduler token and thread affinity: for each terminal at most one handle is in the task queue, at
the terminal's own thread, and a handle is resumed only when it is there. -/

namespace Tpcc.Terminal

open Lib TaskQueue Db Finset

/-- The terminal is inside `IncInflight` or waits for a slot. -/
def Control.asks : Control → Bool
  | .running .requesting => true
  | .queued .admitted => true
  | _ => false

/-- Between the request for a slot and `DecInflight`. -/
def Place.inCycle : Place → Bool
  | .requesting | .admitted | .attempt _ | .holding _ | .finished _ _ | .releasing _ _
  | .caught _ _ | .release _ => true
  | .loopTop | .keying | .keyed | .request | .thinking => false

def Control.inCycle : Control → Bool
  | .queued p => p.inCycle
  | .running p => p.inCycle
  | .transaction _ _ _ => true
  | .handing _ _ => true
  | .created | .done => false

/-- What the guard in the terminal's frame holds. -/
inductive Phase
  | none
  | session
  | releasing
  deriving DecidableEq

def Place.phase : Place → Phase
  | .holding _ | .finished _ _ => .session
  | .releasing _ _ => .releasing
  | _ => .none

def Control.phase : Control → Phase
  | .queued p => p.phase
  | .running p => p.phase
  | .transaction _ _ _ => .session
  | .handing _ _ => .session
  | .created | .done => .none

/-- A step of the code on a thread that neither stores a handle nor asks for or gives back a slot. -/
structure Quiet (control control' : Control) : Prop where
  stores : ∀ role, control'.stores role = control.stores role
  asks : control.asks = false
  asks' : control'.asks = false
  inCycle : control'.inCycle = control.inCycle

section Steps

variable {cfg : RunConfig} {n : Nat} {s s' : Terminals n} {t : Nat}

theorem Tx.advance_quiet {x x' : Tx} (h : x.advance = some x') (k : Nat) (suspended : Bool) :
    x.onThread = true ∧
      Quiet (.transaction k x suspended) (.transaction k x' suspended) := by
  cases x with
  | issued ready =>
    cases ready with
    | true =>
      cases h
      exact ⟨rfl, fun role => by cases role <;> rfl, rfl, rfl, rfl⟩
    | false =>
      cases h
      exact ⟨rfl, fun role => by cases role <;> rfl, rfl, rfl, rfl⟩
  | subscribing ready =>
    cases ready with
    | true =>
      cases h
      exact ⟨rfl, fun role => by cases role <;> rfl, rfl, rfl, rfl⟩
    | false =>
      cases h
      exact ⟨rfl, fun role => by cases role <;> rfl, rfl, rfl, rfl⟩
  | _ => cases h

theorem Tx.complete_quiet {x x' : Tx} (h : x.complete = some x') (k : Nat) (suspended : Bool) :
    x'.onThread = x.onThread ∧
      Quiet (.transaction k x suspended) (.transaction k x' suspended) := by
  cases x with
  | issued ready =>
    cases ready with
    | true => cases h
    | false =>
      cases h
      exact ⟨rfl, fun role => by cases role <;> rfl, rfl, rfl, rfl⟩
  | subscribing ready =>
    cases ready with
    | true => cases h
    | false =>
      cases h
      exact ⟨rfl, fun role => by cases role <;> rfl, rfl, rfl, rfl⟩
  | subscribed =>
    cases h
    exact ⟨rfl, fun role => by cases role <;> rfl, rfl, rfl, rfl⟩
  | _ => cases h

/-- The steps of the code on thread `t` of terminal `id`: without the pool, or through the guard. -/
inductive AdvanceMove (cfg : RunConfig) (s : Terminals n) (t : Nat) (id : Fin n) :
    Terminals n → Prop
  | plain (control : Control) (hquiet : Quiet (s.control id) control)
      (hphase : cfg.needsConnections = true → control.phase = (s.control id).phase) :
      AdvanceMove cfg s t id (s.move (some t) id control)
  | acquire (k : Nat) (pool : ObConnectionPool Nat (Fin n))
      (hcontrol : s.control id = .running (.attempt k))
      (hpool : s.pool.step (.acquireSession id) = some pool) :
      AdvanceMove cfg s t id ({ s with pool := pool }.move (some t) id (.running (.holding k)))
  | releaseConnection (k : Nat) (outcome : Outcome) (pool : ObConnectionPool Nat (Fin n))
      (hcontrol : s.control id = .running (.finished k outcome))
      (hpool : s.pool.step (.releaseConnection id) = some pool) :
      AdvanceMove cfg s t id
        ({ s with pool := pool }.move (some t) id (.running (.releasing k outcome)))
  | pushFree (k : Nat) (outcome : Outcome) (pool : ObConnectionPool Nat (Fin n))
      (hcontrol : s.control id = .running (.releasing k outcome))
      (hpool : s.pool.step (.pushFree id) = some pool) :
      AdvanceMove cfg s t id
        ({ s with pool := pool }.move (some t) id (.running (.caught k outcome)))

theorem Quiet.of_running {p p' : Place} (hp : p ≠ .requesting) (hp' : p' ≠ .requesting)
    (hcycle : p'.inCycle = p.inCycle) : Quiet (.running p) (.running p') where
  stores := fun role => by cases role <;> rfl
  asks := by cases p <;> first | rfl | exact absurd rfl hp
  asks' := by cases p' <;> first | rfl | exact absurd rfl hp'
  inCycle := hcycle

theorem Quiet.of_done {p : Place} (hp : p ≠ .requesting) (hcycle : p.inCycle = false) :
    Quiet (.running p) .done where
  stores := fun role => by cases role <;> rfl
  asks := by cases p <;> first | rfl | exact absurd rfl hp
  asks' := rfl
  inCycle := hcycle.symm

theorem withPool_eq_some {action : Db.Action (Fin n)} {id : Fin n} {control : Control}
    (h : s.withPool action t id control = some s') :
    ∃ pool, s.pool.step action = some pool ∧
      s' = { s with pool := pool }.move (some t) id control := by
  obtain ⟨pool, hpool, rfl⟩ := Option.map_eq_some_iff.1 h
  exact ⟨pool, hpool, rfl⟩

theorem advance_move (h : advance cfg s t = some s') :
    ∃ id, s.active t = some id ∧ AdvanceMove cfg s t id s' := by
  unfold advance at h
  split at h
  · cases h
  · next id hactive =>
    refine ⟨id, hactive, ?_⟩
    split at h
    · next hcontrol =>
      split at h
      · cases h
        exact .plain _ (hcontrol ▸ .of_done nofun rfl) fun _ => by rw [hcontrol]; rfl
      · cases h
        refine .plain _ (hcontrol ▸ .of_running nofun ?_ ?_) fun _ => ?_
        · split <;> nofun
        · split <;> rfl
        · rw [hcontrol]
          split <;> rfl
    · next hcontrol =>
      split at h
      · cases h
        exact .plain _ (hcontrol ▸ .of_done nofun rfl) fun _ => by rw [hcontrol]; rfl
      · cases h
        exact .plain _ (hcontrol ▸ .of_running nofun nofun rfl) fun _ => by rw [hcontrol]; rfl
    · next hcontrol =>
      split at h
      · cases h
        exact .plain _ (hcontrol ▸ .of_running nofun nofun rfl) fun _ => by rw [hcontrol]; rfl
      · cases h
        exact .plain _ (hcontrol ▸ .of_running nofun nofun rfl) fun _ => by rw [hcontrol]; rfl
    · next k hcontrol =>
      split at h
      · obtain ⟨pool, hpool, rfl⟩ := withPool_eq_some h
        exact .acquire k pool hcontrol hpool
      · next hnone =>
        cases h
        exact .plain _ (hcontrol ▸ .of_running nofun nofun rfl) fun hneeds => absurd hneeds hnone
    · next k hcontrol =>
      cases h
      refine .plain _ ⟨fun role => ?_, ?_, rfl, ?_⟩ fun _ => by rw [hcontrol]; rfl
      · rw [hcontrol]
        cases role <;> rfl
      · rw [hcontrol]
        rfl
      · rw [hcontrol]
        rfl
    · next k outcome hcontrol =>
      split at h
      · obtain ⟨pool, hpool, rfl⟩ := withPool_eq_some h
        exact .releaseConnection k outcome pool hcontrol hpool
      · next hnone =>
        cases h
        exact .plain _ (hcontrol ▸ .of_running nofun nofun rfl) fun hneeds => absurd hneeds hnone
    · next k outcome hcontrol =>
      obtain ⟨pool, hpool, rfl⟩ := withPool_eq_some h
      exact .pushFree k outcome pool hcontrol hpool
    · next k outcome hcontrol =>
      dsimp only at h
      split at h
      · cases h
        exact .plain _ (hcontrol ▸ .of_running nofun nofun rfl) fun _ => by rw [hcontrol]; rfl
      · cases h
        exact .plain _ (hcontrol ▸ .of_running nofun nofun rfl) fun _ => by rw [hcontrol]; rfl
    · next k x suspended hcontrol =>
      split at h
      · obtain ⟨x', hx, rfl⟩ := Option.map_eq_some_iff.1 h
        exact .plain _ (hcontrol ▸ (x.advance_quiet hx k suspended).2) fun _ => by
          rw [hcontrol]
          rfl
      · split at h
        · cases h
        · cases h
          refine .plain _ ⟨fun role => ?_, ?_, rfl, ?_⟩ fun _ => by rw [hcontrol]; rfl
          · rw [hcontrol]
            cases x <;> cases role <;> rfl
          · rw [hcontrol]
            rfl
          · rw [hcontrol]
            rfl
    · cases h

/-- The other steps of the transaction on thread `t`. -/
theorem submit_move (h : submit cfg s t = some s') :
    ∃ id, s.active t = some id ∧ AdvanceMove cfg s t id s' := by
  unfold submit at h
  split at h
  · cases h
  · next id hactive =>
    refine ⟨id, hactive, ?_⟩
    split at h
    · next k suspended hcontrol =>
      split at h
      · cases h
        refine .plain _ ⟨fun role => ?_, ?_, rfl, ?_⟩ fun _ => by rw [hcontrol]; rfl
        · rw [hcontrol]
          cases role <;> rfl
        · rw [hcontrol]
          rfl
        · rw [hcontrol]
          rfl
      · cases h
    · cases h

theorem finish_move {outcome : Outcome} (h : finish s t outcome = some s') :
    ∃ id, s.active t = some id ∧ AdvanceMove cfg s t id s' := by
  unfold finish at h
  split at h
  · cases h
  · next id hactive =>
    refine ⟨id, hactive, ?_⟩
    split at h
    · next k hcontrol =>
      cases h
      refine .plain _ ⟨fun role => ?_, ?_, rfl, ?_⟩ fun _ => by rw [hcontrol]; rfl
      · rw [hcontrol]
        cases role <;> rfl
      · rw [hcontrol]
        rfl
      · rw [hcontrol]
        rfl
    · next k hcontrol =>
      cases h
      refine .plain _ ⟨fun role => ?_, ?_, rfl, ?_⟩ fun _ => by rw [hcontrol]; rfl
      · rw [hcontrol]
        cases role <;> rfl
      · rw [hcontrol]
        rfl
      · rw [hcontrol]
        rfl
    · cases h

/-- The steps outside the task queue. -/
inductive OwnMove (cfg : RunConfig) (s : Terminals n) : Terminals n → Prop
  | requestStop : OwnMove cfg s { s with stopRequested := true }
  | cancelAll (pool : ObConnectionPool Nat (Fin n)) (hpool : s.pool.step .cancelAll = some pool) :
      OwnMove cfg s { s with pool := pool }
  | advance (t : Nat) (id : Fin n) {s' : Terminals n} (hactive : s.active t = some id)
      (hmove : AdvanceMove cfg s t id s') : OwnMove cfg s s'
  | complete (id : Fin n) (op : Operation) (k : Nat) (x x' : Tx) (suspended : Bool)
      (pool : ObConnectionPool Nat (Fin n)) (hcontrol : s.control id = .transaction k x suspended)
      (hx : x.complete = some x') (hpool : s.pool.step (.operate id op) = some pool) :
      OwnMove cfg s ({ s with pool := pool }.move none id (.transaction k x' suspended))

theorem own_move {i : Step n} (h : own cfg s i = some s') : OwnMove cfg s s' := by
  cases i with
  | requestStop =>
    cases h
    exact .requestStop
  | cancelAll =>
    simp only [own] at h
    obtain ⟨pool, hpool, rfl⟩ := Option.map_eq_some_iff.1 h
    exact .cancelAll pool hpool
  | advance t =>
    obtain ⟨id, hactive, hmove⟩ := advance_move h
    exact .advance t id hactive hmove
  | submit t =>
    obtain ⟨id, hactive, hmove⟩ := submit_move h
    exact .advance t id hactive hmove
  | finish t outcome =>
    obtain ⟨id, hactive, hmove⟩ := finish_move h
    exact .advance t id hactive hmove
  | complete id op =>
    simp only [own, complete] at h
    split at h
    · next k x suspended hcontrol =>
      split at h
      · next x' pool hx hpool =>
        cases h
        exact .complete id op k x x' suspended pool hcontrol hx hpool
      · cases h
    · cases h

/-- A suspended coroutine whose handle a call puts into the queue: the control before the call, and
after it. -/
structure Suspends (control : Control) (role : Role) : Prop where
  stores : ∀ r, control.stores r = false
  stores' : ∀ r, (control.suspended role).stores r = decide (r = role)
  asks : control.asks = false
  asks' : (control.suspended role).asks = false
  inCycle : (control.suspended role).inCycle = control.inCycle
  phase : (control.suspended role).phase = control.phase

/-- The calls that terminals make on a queue thread. -/
inductive TerminalCall (control : Control) (id : Fin n) : Call (Handle n) → Prop
  | asyncSleep (role : Role) (hsuspends : Suspends control role) :
      TerminalCall control id (.asyncSleep ⟨id, role⟩ id)
  | incInflight (hcontrol : control = .running .request) :
      TerminalCall control id (.incInflight ⟨id, .terminal⟩ id)
  | decInflight (after : AfterRelease) (hcontrol : control = .running (.release after)) :
      TerminalCall control id (.decInflight ⟨id, .terminal⟩)
  | taskReadyThreadSafe (role : Role) (hsuspends : Suspends control role) :
      TerminalCall control id (.taskReadyThreadSafe ⟨id, role⟩ id)

theorem Control.calls_terminalCall {control : Control} {c : Call (Handle n)}
    (h : control.calls cfg c = true)
    (hhint : (Call.subject c).2.all (· = (Call.subject c).1.id.val) = true) :
    TerminalCall control (Call.subject c).1.id c := by
  unfold Control.calls at h
  split at h
  · next id hint =>
    obtain rfl : hint = id.val := of_decide_eq_true hhint
    exact .asyncSleep .terminal
      ⟨fun r => by cases r <;> rfl, fun r => by cases r <;> rfl, rfl, rfl, rfl, rfl⟩
  · next id hint =>
    obtain rfl : hint = id.val := of_decide_eq_true hhint
    exact .asyncSleep .terminal
      ⟨fun r => by cases r <;> rfl, fun r => by cases r <;> rfl, rfl, rfl, rfl, rfl⟩
  · next id hint =>
    obtain rfl : hint = id.val := of_decide_eq_true hhint
    exact .incInflight rfl
  · next after id => exact .decInflight after rfl
  · next k suspended id hint =>
    obtain rfl : hint = id.val := of_decide_eq_true hhint
    exact .asyncSleep .transaction
      ⟨fun r => by cases r <;> rfl, fun r => by cases r <;> rfl, rfl, rfl, rfl, rfl⟩
  · next k suspended id hint =>
    obtain rfl : hint = id.val := of_decide_eq_true hhint
    exact .taskReadyThreadSafe .transaction
      ⟨fun r => by cases r <;> rfl, fun r => by cases r <;> rfl, rfl, rfl, rfl, rfl⟩
  · next k outcome id hint =>
    obtain rfl : hint = id.val := of_decide_eq_true hhint
    exact .taskReadyThreadSafe .terminal
      ⟨fun r => by cases r <;> rfl, fun r => by cases r <;> rfl, rfl, rfl, rfl, rfl⟩
  · cases h

theorem call_move {c : Call (Handle n)} (h : call cfg s (some t) c = some s') :
    ∃ id, s.active t = some id ∧ TerminalCall (s.control id) id c ∧ s' = s.entering t id c := by
  unfold call at h
  dsimp only at h
  split at h
  · next hhint =>
    split at h
    · next hcan =>
      exact ⟨(Call.subject c).1.id, hcan.1, Control.calls_terminalCall hcan.2 hhint,
        (Option.some.inj h).symm⟩
    · cases h
  · cases h

theorem Control.callsOutside_suspends {control : Control} {id : Fin n} {role : Role}
    {threadHint : Nat}
    (h : control.callsOutside (Call.taskReadyThreadSafe ⟨id, role⟩ threadHint) = true) :
    control.onThread = (control.suspended role).onThread ∧ Suspends control role := by
  cases control with
  | created =>
    cases role with
    | terminal =>
      exact ⟨rfl, fun r => by cases r <;> rfl, fun r => by cases r <;> rfl, rfl, rfl, rfl, rfl⟩
    | transaction => cases h
  | transaction k x suspended =>
    cases role with
    | terminal => cases x <;> cases h
    | transaction =>
      cases x with
      | completing =>
        exact ⟨by cases suspended <;> rfl, fun r => by cases r <;> rfl,
          fun r => by cases r <;> rfl, rfl, rfl, rfl, rfl⟩
      | _ => cases h
  | _ => cases h

theorem callOutside_move {id : Fin n} {role : Role} {threadHint : Nat}
    (hcall : call cfg s none (.taskReadyThreadSafe ⟨id, role⟩ threadHint) = some s') :
    threadHint = id.val ∧ s' = s ∧
      (s.control id).onThread = ((s.control id).suspended role).onThread ∧
      Suspends (s.control id) role := by
  have hhint : threadHint = id.val := by
    by_contra hne
    simp [call, Call.subject, hne] at hcall
  subst hhint
  have hcan : (s.control id).callsOutside (.taskReadyThreadSafe ⟨id, role⟩ id.val) = true := by
    by_contra hne
    simp [call, Call.subject, hne] at hcall
  have hsame : s' = s := by
    simp only [call, Call.subject, hcan, if_true, Option.all, decide_true] at hcall
    exact (Option.some.inj hcall).symm
  exact ⟨rfl, hsame, Control.callsOutside_suspends hcan⟩

/-- A terminal leaves `DecInflight`. -/
theorem release_client (cfg : RunConfig) (t : Nat) {id : Fin n} {after : AfterRelease}
    (hcontrol : s.control id = .running (.release after)) :
    (terminals cfg).notify s (.finished (some t) (.decInflight ⟨id, .terminal⟩) .ok) =
      { s with stopRequested := s.stopRequested || decide (after = AfterRelease.fatal) }.move
        (some t) id (after.control cfg) := by
  simp [terminals, finished, hcontrol]

end Steps

section Invariant

variable {cfg : RunConfig}

/-- The context of a terminal. -/
def home (cfg : RunConfig) (id : Fin cfg.terminalCount) : Nat := cfg.queue.home id.val

abbrev State (cfg : RunConfig) :=
  System (Handle cfg.terminalCount) (Terminals cfg.terminalCount)

/-- The ownership invariant. -/
structure Token (cfg : RunConfig) (s : State cfg) : Prop where
  stored : ∀ t < cfg.threadCount, ∀ h, (s.q.stored t).count h =
    if home cfg h.id = t ∧ (s.client.control h.id).stores h.role = true then 1 else 0
  active : ∀ t id, s.client.active t = some id ↔
    home cfg id = t ∧ (s.client.control id).onThread = true
  running : ∀ t id, s.client.active t = some id →
    ∃ back inside, s.q.thread t = .running back inside
  inside : ∀ t < cfg.threadCount, ∀ h threadHint slot,
    (s.q.thread t).request cfg.queue = some (h, threadHint, slot) →
    h.role = .terminal ∧ threadHint = h.id.val ∧ s.client.active t = some h.id ∧
      s.client.control h.id = .running .requesting
  waiting : ∀ t < cfg.threadCount, ∀ h ∈ s.q.waiting t,
    h.role = .terminal ∧ s.client.control h.id = .queued .admitted
  fault : s.client.fault = false

theorem home_lt (id : Fin cfg.terminalCount) : home cfg id < cfg.threadCount :=
  cfg.queue.home_lt id.val

/-- A control stores at most one of the two handles. -/
theorem Control.stores_unique {control : Control} {role role' : Role}
    (h : control.stores role = true) (h' : control.stores role' = true) : role = role' := by
  cases control with
  | queued p =>
    cases role with
    | terminal => cases role' with
      | terminal => rfl
      | transaction => cases h'
    | transaction => cases h
  | transaction k x suspended =>
    cases role with
    | terminal => cases x <;> cases h
    | transaction => cases role' with
      | terminal => cases x <;> cases h'
      | transaction => rfl
  | _ => cases h

theorem count_map_fst {n : Nat} (l : List (Handle n)) (id : Fin n) :
    (l.map Handle.id).count id = l.count ⟨id, .terminal⟩ + l.count ⟨id, .transaction⟩ := by
  induction l with
  | nil => rfl
  | cons h l ih =>
    obtain ⟨id', role⟩ := h
    rw [List.map_cons, List.count_cons, List.count_cons, List.count_cons, ih]
    by_cases hid : id' = id
    · subst hid
      cases role with
      | terminal => simp; omega
      | transaction => simp; omega
    · simp [hid]

namespace Token

variable {s s' : State cfg}

theorem ids_nodup (h : Token cfg s) {t : Nat} (ht : t < cfg.threadCount) :
    ((s.q.stored t).map Handle.id).Nodup := by
  refine List.nodup_iff_count_le_one.2 fun id => ?_
  rw [count_map_fst, h.stored t ht, h.stored t ht]
  by_cases hstores : (s.client.control id).stores .terminal = true
  · have hother : (s.client.control id).stores .transaction = false := by
      by_contra hboth
      cases Control.stores_unique hstores (by simpa using hboth)
    simp only [hother, Bool.false_eq_true, and_false, if_false]
    split <;> omega
  · have hnone : (s.client.control id).stores .terminal = false := by simpa using hstores
    simp only [hnone, Bool.false_eq_true, and_false, if_false]
    split <;> omega

/-- A terminal none of whose handles is stored leaves room for one more. -/
theorem length_lt (h : Token cfg s) {t : Nat} (ht : t < cfg.threadCount)
    {id : Fin cfg.terminalCount} (hid : ∀ role, (s.client.control id).stores role = false) :
    (s.q.stored t).length < cfg.terminalCount := by
  have hnot : id ∉ (s.q.stored t).map Handle.id := by
    intro hmem
    have hpos := List.count_pos_iff.2 hmem
    rw [count_map_fst, h.stored t ht, h.stored t ht] at hpos
    simp [hid] at hpos
  have hcard := (List.nodup_cons.2 ⟨hnot, h.ids_nodup ht⟩).length_le_card
  rw [Fintype.card_fin, List.length_cons, List.length_map] at hcard
  omega

theorem length_le (h : Token cfg s) {t : Nat} (ht : t < cfg.threadCount) :
    (s.q.stored t).length ≤ cfg.terminalCount := by
  have hcard := (h.ids_nodup ht).length_le_card
  rwa [Fintype.card_fin, List.length_map] at hcard

/-- The rule for a step that changes the control of terminal `id`. -/
theorem update (h : Token cfg s) (id : Fin cfg.terminalCount) (control : Control)
    (hcontrol : s'.client.control = Function.update s.client.control id control)
    (hstored : ∀ t < cfg.threadCount, ∀ a, a.id ≠ id →
      (s'.q.stored t).count a = (s.q.stored t).count a)
    (hown : ∀ t < cfg.threadCount, ∀ role, (s'.q.stored t).count ⟨id, role⟩ =
      if home cfg id = t ∧ control.stores role = true then 1 else 0)
    (hactive : ∀ t b, b ≠ id → (s'.client.active t = some b ↔ s.client.active t = some b))
    (hself : ∀ t, s'.client.active t = some id ↔ home cfg id = t ∧ control.onThread = true)
    (hrunning : ∀ t b, s'.client.active t = some b →
      ∃ back inside, s'.q.thread t = .running back inside)
    (hinside : ∀ t < cfg.threadCount, ∀ a threadHint slot,
      (s'.q.thread t).request cfg.queue = some (a, threadHint, slot) →
      a.id ≠ id ∧ (s.q.thread t).request cfg.queue = some (a, threadHint, slot) ∨
        a = ⟨id, .terminal⟩ ∧ threadHint = id.val ∧ s'.client.active t = some id ∧
          control = .running .requesting)
    (hwaiting : ∀ t < cfg.threadCount, ∀ a ∈ s'.q.waiting t,
      a.id ≠ id ∧ a ∈ s.q.waiting t ∨ a = ⟨id, .terminal⟩ ∧ control = .queued .admitted)
    (hfault : s'.client.fault = false) : Token cfg s' where
  stored := by
    rintro t ht ⟨b, role⟩
    by_cases hb : b = id
    · subst hb
      rw [hown t ht, hcontrol, Function.update_self]
    · rw [hstored t ht _ hb, h.stored t ht, hcontrol, Function.update_of_ne hb]
  active := by
    intro t b
    by_cases hb : b = id
    · subst hb
      rw [hself t, hcontrol, Function.update_self]
    · rw [hactive t b hb, h.active t, hcontrol, Function.update_of_ne hb]
  running := hrunning
  inside := by
    rintro t ht ⟨b, role⟩ threadHint slot hrequest
    rcases hinside t ht _ threadHint slot hrequest with ⟨hb, hold⟩ | ⟨heq, hhint, hact, hrequesting⟩
    · obtain ⟨hrole, hhint, hact, hrequesting⟩ := h.inside t ht _ threadHint slot hold
      refine ⟨hrole, hhint, (hactive t b hb).2 hact, ?_⟩
      rw [hcontrol, Function.update_of_ne hb]
      exact hrequesting
    · obtain ⟨rfl, rfl⟩ := Handle.mk.inj heq
      exact ⟨rfl, hhint, hact, by rw [hcontrol, Function.update_self, hrequesting]⟩
  waiting := by
    rintro t ht ⟨b, role⟩ hmem
    rcases hwaiting t ht _ hmem with ⟨hb, hold⟩ | ⟨heq, hadmitted⟩
    · obtain ⟨hrole, hqueued⟩ := h.waiting t ht _ hold
      exact ⟨hrole, by rw [hcontrol, Function.update_of_ne hb]; exact hqueued⟩
    · obtain ⟨rfl, rfl⟩ := Handle.mk.inj heq
      exact ⟨rfl, by rw [hcontrol, Function.update_self, hadmitted]⟩
  fault := hfault

/-- What `move` does to the terminal that runs on thread `t`. -/
theorem move_active (h : Token cfg s) {t : Nat} {id : Fin cfg.terminalCount}
    (hid : s.client.active t = some id) (control : Control) :
    (∀ u b, b ≠ id →
      ((s.client.move (some t) id control).active u = some b ↔ s.client.active u = some b)) ∧
    (∀ u, (s.client.move (some t) id control).active u = some id ↔
      home cfg id = u ∧ control.onThread = true) := by
  obtain ⟨hhome, hon⟩ := (h.active t id).1 hid
  by_cases hcontrol : control.onThread = true
  · simp only [Terminals.move, if_pos hcontrol]
    refine ⟨fun _ _ _ => trivial, fun u => ?_⟩
    rw [h.active u id]
    exact and_congr_right fun _ => iff_of_true hon hcontrol
  · simp only [Terminals.move, if_neg hcontrol]
    refine ⟨fun u b hb => ?_, fun u => ?_⟩
    · by_cases hut : u = t
      · subst hut
        simp [hid, hb.symm]
      · simp [hut]
    · by_cases hut : u = t
      · subst hut
        simp [hcontrol]
      · have hnot : s.client.active u ≠ some id := by
          intro hact
          exact hut (((h.active u id).1 hact).1.symm.trans hhome)
        simp [hut, hnot, hcontrol]

/-- A terminal that does not ask for a slot is in no request and in no waiting queue. -/
theorem not_asking (h : Token cfg s) {id : Fin cfg.terminalCount}
    (hasks : (s.client.control id).asks = false) :
    (∀ t < cfg.threadCount, ∀ a threadHint slot,
      (s.q.thread t).request cfg.queue = some (a, threadHint, slot) → a.id ≠ id) ∧
    (∀ t < cfg.threadCount, ∀ a ∈ s.q.waiting t, a.id ≠ id) := by
  constructor
  · rintro t ht ⟨b, role⟩ threadHint slot hrequest rfl
    obtain ⟨-, -, -, hcontrol⟩ := h.inside t ht _ threadHint slot hrequest
    rw [hcontrol] at hasks
    cases hasks
  · rintro t ht ⟨b, role⟩ hmem rfl
    obtain ⟨-, hcontrol⟩ := h.waiting t ht _ hmem
    rw [hcontrol] at hasks
    cases hasks

/-- The code on thread `t` goes on without the queue. -/
theorem quiet (h : Token cfg s) {t : Nat} {id : Fin cfg.terminalCount}
    (hid : s.client.active t = some id) {control : Control}
    (hstores : ∀ role, control.stores role = (s.client.control id).stores role)
    (hasks : (s.client.control id).asks = false) {client : Terminals cfg.terminalCount}
    (hcontrol : client.control = Function.update s.client.control id control)
    (hactive : client.active = (s.client.move (some t) id control).active)
    (hfault : client.fault = s.client.fault) : Token cfg (s.setClient client) := by
  obtain ⟨hothers, hself⟩ := h.move_active hid control
  obtain ⟨hrequests, hwaits⟩ := h.not_asking hasks
  rw [← hactive] at hothers hself
  refine h.update id control hcontrol (fun _ _ _ _ => rfl) ?_ hothers hself ?_ ?_ ?_
    (hfault.trans h.fault)
  · intro u hu role
    rw [hstores]
    exact h.stored u hu ⟨id, role⟩
  · intro u b hb
    by_cases hbid : b = id
    · subst hbid
      obtain ⟨hu, -⟩ := (hself u).1 hb
      have ht := ((h.active t b).1 hid).1
      exact h.running u b (by rw [← hu, ht]; exact hid)
    · exact h.running u b ((hothers u b hbid).1 hb)
  · exact fun u hu a hint slot hr => .inl ⟨hrequests u hu a hint slot hr, hr⟩
  · exact fun u hu a hmem => .inl ⟨hwaits u hu a hmem, hmem⟩

theorem own (h : Token cfg s) {client : Terminals cfg.terminalCount}
    (hmove : OwnMove cfg s.client client) : Token cfg (s.setClient client) := by
  cases hmove with
  | requestStop => exact ⟨h.stored, h.active, h.running, h.inside, h.waiting, h.fault⟩
  | cancelAll pool _ => exact ⟨h.stored, h.active, h.running, h.inside, h.waiting, h.fault⟩
  | advance t id hid hmove =>
    cases hmove with
    | plain control hquiet _ => exact h.quiet hid hquiet.stores hquiet.asks rfl rfl rfl
    | acquire k pool hcontrol _ =>
      exact h.quiet hid (fun role => by rw [hcontrol]; cases role <;> rfl) (by rw [hcontrol]; rfl)
        rfl rfl rfl
    | releaseConnection k outcome pool hcontrol _ =>
      exact h.quiet hid (fun role => by rw [hcontrol]; cases role <;> rfl) (by rw [hcontrol]; rfl)
        rfl rfl rfl
    | pushFree k outcome pool hcontrol _ =>
      exact h.quiet hid (fun role => by rw [hcontrol]; cases role <;> rfl) (by rw [hcontrol]; rfl)
        rfl rfl rfl
  | complete id op k x x' suspended pool hcontrol hx _ =>
    obtain ⟨hthread, hquiet⟩ := x.complete_quiet hx k suspended
    have hasks : (s.client.control id).asks = false := by rw [hcontrol]; rfl
    obtain ⟨hrequests, hwaits⟩ := h.not_asking hasks
    refine h.update id (.transaction k x' suspended) rfl (fun _ _ _ _ => rfl) ?_
      (fun _ _ _ => Iff.rfl) ?_ h.running
      (fun u hu a hint slot hr => .inl ⟨hrequests u hu a hint slot hr, hr⟩)
      (fun u hu a hmem => .inl ⟨hwaits u hu a hmem, hmem⟩) h.fault
    · intro u hu role
      rw [hquiet.stores, ← hcontrol]
      exact h.stored u hu ⟨id, role⟩
    · intro u
      have hact := h.active u id
      rw [hcontrol] at hact
      rw [Control.onThread, hthread]
      exact hact

/-- A queue holds at least one handle of every terminal. -/
theorem terminalCount_le_capacity (cfg : RunConfig) :
    cfg.terminalCount ≤ cfg.queue.internalCapacity ∧
    cfg.terminalCount ≤ cfg.queue.externalCapacity := by
  have hle : cfg.terminalCount < 2 ^ 64 := by
    have := cfg.terminals_le
    unfold RunConfig.terminalCount
    omega
  have hcap := Spsc.le_slotCount (UInt64.ofNat cfg.terminalCount)
  rw [UInt64.toNat_ofNat_of_lt' hle] at hcap
  exact ⟨hcap, hcap⟩

/-- A step of a thread that the terminals do not notice. -/
theorem still (h : Token cfg s) {t : Nat} {pick : Option Nat} (ht : t < cfg.threadCount)
    (hmove : LoopMove cfg.queue (terminals cfg) s t s') (hclient : s'.client = s.client)
    (haccepted : s'.history.accepted = s.history.accepted)
    (hresumed : s'.history.resumed = s.history.resumed)
    (henqueued : s'.history.enqueued = s.history.enqueued)
    (hkeeps : Keeps cfg.queue s
      (.loop t pick : TaskQueue.Action (Handle cfg.terminalCount) (Step cfg.terminalCount)))
    (halive : s'.q.thread t ≠ .terminated)
    (hpoint : ∀ back inside, s.q.thread t = .running back inside →
      ∃ back inside, s'.q.thread t = .running back inside) : Token cfg s' := by
  obtain ⟨-, -, hother⟩ := hmove.frame
  refine ⟨fun u hu a => ?_, ?_, fun u id hid => ?_, fun u hu a hint slot hr => ?_,
    fun u hu a hmem => ?_, ?_⟩
  · have hflow := hmove.flow_of_keeps ht [] [] hkeeps halive
      (haccepted.trans (List.append_nil _).symm) (hresumed.trans (List.append_nil _).symm)
    rw [hflow.stored_eq, hclient]
    exact h.stored u hu a
  · rw [hclient]
    exact h.active
  · rw [hclient] at hid
    obtain ⟨back, inside, hrun⟩ := h.running u id hid
    by_cases hut : u = t
    · subst hut
      exact hpoint back inside hrun
    · exact ⟨back, inside, by rw [hother u hut, hrun]⟩
  · rw [hclient]
    by_cases hut : u = t
    · subst hut
      exact h.inside u hu a hint slot (hmove.request hr)
    · exact h.inside u hu a hint slot (by rwa [hother u hut] at hr)
  · rw [hclient]
    cases hmove.waiting ht with
    | same hwaiting _ _ _ => exact h.waiting u hu a (by rwa [hwaiting] at hmem)
    | direct _ _ _ _ _ _ _ _ hwaiting _ _ _ => exact h.waiting u hu a (by rwa [hwaiting] at hmem)
    | pop v b rest _ hfront hwaiting _ _ _ =>
      refine h.waiting u hu a ?_
      rw [hwaiting] at hmem
      by_cases huv : u = v
      · subst huv
        rw [hfront]
        exact List.mem_cons_of_mem b (by simpa using hmem)
      · simpa [huv] using hmem
    | push v back b hint _ _ _ hnew _ _ =>
      rw [henqueued] at hnew
      have hlist := congrFun hnew (cfg.queue.home hint)
      simp at hlist
  · rw [hclient]
    exact h.fault

/-- A thread that is not inside `resume()` runs no terminal. -/
theorem idle (h : Token cfg s) {t : Nat}
    (hpoint : ∀ back inside, s.q.thread t ≠ .running back inside) (id : Fin cfg.terminalCount) :
    s.client.active t ≠ some id := by
  intro hid
  obtain ⟨back, inside, hrun⟩ := h.running t id hid
  exact hpoint back inside hrun

/-- What a stored handle says about its terminal, where nothing of the terminal runs. -/
theorem resumed_eq (h : Token cfg s) {t : Nat} (ht : t < cfg.threadCount)
    (hidle : ∀ id, s.client.active t ≠ some id) {a : Handle cfg.terminalCount}
    (hmem : a ∈ s.q.stored t) :
    home cfg a.id = t ∧ (s.client.control a.id).stores a.role = true ∧
    ∃ control, (∀ role, control.stores role = false) ∧ control.onThread = true ∧
      control.inCycle = (s.client.control a.id).inCycle ∧
      control.phase = (s.client.control a.id).phase ∧
      resumed s.client t a =
        { s.client with
          control := Function.update s.client.control a.id control
          active := Function.update s.client.active t (some a.id) } := by
  have hcount := h.stored t ht a
  have hpos := List.count_pos_iff.2 hmem
  rw [hcount] at hpos
  split at hpos
  · next hstores =>
    obtain ⟨hhome, hstores⟩ := hstores
    refine ⟨hhome, hstores, ?_⟩
    obtain ⟨id, role⟩ := a
    have hnot : (s.client.control id).onThread = false := by
      by_contra hon
      exact hidle id ((h.active t id).2 ⟨hhome, by simpa using hon⟩)
    cases role with
    | terminal =>
      cases hcontrol : s.client.control id with
      | queued p =>
        refine ⟨.running p, fun role => by cases role <;> rfl, rfl, rfl, rfl, ?_⟩
        simp [resumed, hcontrol]
      | transaction k x suspended =>
        rw [hcontrol] at hstores
        cases x <;> cases hstores
      | _ =>
        rw [hcontrol] at hstores
        cases hstores
    | transaction =>
      cases hcontrol : s.client.control id with
      | transaction k x suspended =>
        rw [hcontrol] at hstores hnot
        cases x with
        | queued =>
          cases suspended with
          | true =>
            refine ⟨.transaction k .running true, fun role => by cases role <;> rfl, rfl, rfl, rfl,
              ?_⟩
            simp [resumed, hcontrol]
          | false => cases hnot
        | _ => cases hstores
      | _ =>
        rw [hcontrol] at hstores
        cases hstores
  · omega

/-- A thread resumes a handle that is stored there. -/
theorem resume (h : Token cfg s) {t : Nat} (ht : t < cfg.threadCount)
    (hidle : ∀ id, s.client.active t ≠ some id) {a : Handle cfg.terminalCount}
    {back : Back (Handle cfg.terminalCount)} (hthread : s'.q.thread t = .running back .client)
    (hothers : ∀ u, u ≠ t → s'.q.thread u = s.q.thread u)
    (hwaiting : ∀ u, s'.q.waiting u = s.q.waiting u)
    (hclient : s'.client = resumed s.client t a) (hflow : Flow s s' t [] [a] [] []) :
    Token cfg s' := by
  have hmem : a ∈ s.q.stored t := by
    refine List.count_pos_iff.1 ?_
    have hcount := hflow.here a
    simp only [List.count_singleton_self, List.count_nil] at hcount
    omega
  obtain ⟨hhome, hstores, control, hnone, hon, -, -, hresumed⟩ := h.resumed_eq ht hidle hmem
  rw [hresumed] at hclient
  have hleft : ∀ u < cfg.threadCount, ∀ role, (s'.q.stored u).count ⟨a.id, role⟩ = 0 := by
    intro u hu role
    have hold := h.stored u hu ⟨a.id, role⟩
    by_cases hut : u = t
    · subst hut
      have hcount := hflow.here ⟨a.id, role⟩
      by_cases hrole : role = a.role
      · subst hrole
        simp only [List.count_singleton_self, List.count_nil] at hcount
        rw [if_pos ⟨hhome, hstores⟩] at hold
        omega
      · rw [if_neg fun hboth => hrole (Control.stores_unique hboth.2 hstores)] at hold
        omega
    · rw [hflow.other u hut, hold, if_neg]
      rintro ⟨hu', -⟩
      exact hut (hu'.symm.trans hhome)
  refine h.update a.id control (by rw [hclient]) ?_ ?_ ?_ ?_ ?_ ?_ ?_ (by rw [hclient]; exact h.fault)
  · intro u hu b hb
    refine hflow.count_of_notMem List.not_mem_nil (fun hmem => hb ?_) u
    rw [List.mem_singleton.1 hmem]
  · intro u hu role
    rw [hleft u hu role, if_neg]
    simp [hnone role]
  · intro u b hb
    rw [hclient]
    by_cases hut : u = t
    · subst hut
      simp [hidle b, hb.symm]
    · simp [hut]
  · intro u
    rw [hclient]
    by_cases hut : u = t
    · subst hut
      simp [hhome, hon]
    · have hnot : s.client.active u ≠ some a.id := by
        intro hact
        exact hut (((h.active u a.id).1 hact).1.symm.trans hhome)
      have hne : ¬home cfg a.id = u := fun heq => hut (heq.symm.trans hhome)
      simp [hut, hnot, hne]
  · intro u b hb
    by_cases hut : u = t
    · subst hut
      exact ⟨back, .client, hthread⟩
    · rw [hclient] at hb
      obtain ⟨back', inside, hrun⟩ := h.running u b (by simpa [hut] using hb)
      exact ⟨back', inside, by rw [hothers u hut, hrun]⟩
  · intro u hu b hint slot hr
    by_cases hut : u = t
    · subst hut
      rw [hthread] at hr
      cases hr
    · rw [hothers u hut] at hr
      refine .inl ⟨fun hb => ?_, hr⟩
      obtain ⟨-, -, hact, -⟩ := h.inside u hu b hint slot hr
      rw [hb] at hact
      exact hut (((h.active u a.id).1 hact).1.symm.trans hhome)
  · intro u hu b hmem
    refine .inl ⟨?_, by rwa [hwaiting] at hmem⟩
    rintro hb
    obtain ⟨id, role⟩ := b
    subst hb
    have hpos := List.count_pos_iff.2 (s'.q.waiting_subset_stored u hmem)
    rw [hleft u hu role] at hpos
    omega

/-- The terminal on thread `t` leaves `IncInflight`. -/
theorem answered (h : Token cfg s) {t : Nat} (ht : t < cfg.threadCount)
    {a : Handle cfg.terminalCount} (hid : s.client.active t = some a.id)
    (hrole : a.role = .terminal)
    (hcontrol : s.client.control a.id = .running .requesting)
    {back : Back (Handle cfg.terminalCount)} (hthread : s'.q.thread t = .running back .client)
    (hothers : ∀ u, u ≠ t → s'.q.thread u = s.q.thread u) {control : Control}
    (hclient : s'.client = s.client.move (some t) a.id control)
    (hstored : ∀ u < cfg.threadCount, ∀ b, b.id ≠ a.id →
      (s'.q.stored u).count b = (s.q.stored u).count b)
    (hown : ∀ u < cfg.threadCount, ∀ role, (s'.q.stored u).count ⟨a.id, role⟩ =
      if home cfg a.id = u ∧ control.stores role = true then 1 else 0)
    (hwaiting : ∀ u < cfg.threadCount, ∀ b ∈ s'.q.waiting u,
      b ∈ s.q.waiting u ∨ b = a ∧ control = .queued .admitted) : Token cfg s' := by
  obtain ⟨hothers', hself⟩ := h.move_active hid control
  have hhome := ((h.active t a.id).1 hid).1
  refine h.update a.id control (by rw [hclient]; rfl) hstored hown ?_ ?_ ?_ ?_ ?_
    (by rw [hclient]; exact h.fault)
  · rw [hclient]
    exact hothers'
  · rw [hclient]
    exact hself
  · intro u b hb
    by_cases hut : u = t
    · subst hut
      exact ⟨back, .client, hthread⟩
    · rw [hclient] at hb
      have hold : s.client.active u = some b := by
        by_cases hba : b = a.id
        · subst hba
          exact absurd (((hself u).1 hb).1.symm.trans hhome) hut
        · exact (hothers' u b hba).1 hb
      obtain ⟨back', inside, hrun⟩ := h.running u b hold
      exact ⟨back', inside, by rw [hothers u hut, hrun]⟩
  · intro u hu b hint slot hr
    by_cases hut : u = t
    · subst hut
      rw [hthread] at hr
      cases hr
    · rw [hothers u hut] at hr
      refine .inl ⟨fun hb => ?_, hr⟩
      obtain ⟨-, -, hact, -⟩ := h.inside u hu b hint slot hr
      rw [hb] at hact
      exact hut (((h.active u a.id).1 hact).1.symm.trans hhome)
  · intro u hu b hmem
    rcases hwaiting u hu b hmem with hold | ⟨rfl, hadmitted⟩
    · refine .inl ⟨fun hb => ?_, hold⟩
      obtain ⟨-, hqueued⟩ := h.waiting u hu b hold
      rw [hb, hcontrol] at hqueued
      cases hqueued
    · refine .inr ⟨?_, hadmitted⟩
      rw [← hrole]

/-- What is stored of a terminal that runs without a stored handle. -/
theorem own_stored (h : Token cfg s) {id : Fin cfg.terminalCount} {control : Control}
    (hold : ∀ role, (s.client.control id).stores role = false)
    (hnew : ∀ role, control.stores role = false) (u : Nat) (hu : u < cfg.threadCount)
    (role : Role) : (s.q.stored u).count ⟨id, role⟩ =
      if home cfg id = u ∧ control.stores role = true then 1 else 0 := by
  rw [h.stored u hu]
  simp [hold, hnew]

/-- What is stored of a terminal whose handle is pushed on its own thread. -/
theorem own_pushed (h : Token cfg s) {a : Handle cfg.terminalCount} {control : Control}
    (hold : ∀ role, (s.client.control a.id).stores role = false)
    (hnew : ∀ role, control.stores role = decide (role = a.role))
    (hflow : Flow s s' (home cfg a.id) [a] [] [] []) (u : Nat) (hu : u < cfg.threadCount)
    (role : Role) : (s'.q.stored u).count ⟨a.id, role⟩ =
      if home cfg a.id = u ∧ control.stores role = true then 1 else 0 := by
  have hbefore := h.stored u hu ⟨a.id, role⟩
  rw [if_neg (by simp [hold])] at hbefore
  rw [hnew]
  by_cases hrole : role = a.role
  · subst hrole
    by_cases hut : u = home cfg a.id
    · subst hut
      have hcount := hflow.here a
      rw [hbefore, List.count_singleton_self] at hcount
      simpa using hcount
    · rw [hflow.other u hut, hbefore, if_neg]
      rintro ⟨hu', -⟩
      exact hut hu'.symm
  · have hne : (⟨a.id, role⟩ : Handle cfg.terminalCount) ∉ [a] := by
      intro hmem
      exact hrole (congrArg Handle.role (List.mem_singleton.1 hmem))
    rw [hflow.count_of_notMem hne List.not_mem_nil, hbefore, if_neg]
    simp [hrole]

/-- `IncInflight` puts the handle of a terminal into the waiting queue of its thread. -/
theorem refused (h : Token cfg s) {t : Nat} (ht : t < cfg.threadCount)
    {a : Handle cfg.terminalCount} (hid : s.client.active t = some a.id)
    (hrole : a.role = .terminal) (hcontrol : s.client.control a.id = .running .requesting)
    {back : Back (Handle cfg.terminalCount)} (hthread : s'.q.thread t = .running back .client)
    (hothers : ∀ u, u ≠ t → s'.q.thread u = s.q.thread u)
    (hclient : s'.client = s.client.move (some t) a.id (.queued .admitted))
    (hwaiting : ∀ u, ∀ b ∈ s'.q.waiting u, b ∈ s.q.waiting u ∨ b = a)
    (hflow : Flow s s' t [a] [] [] []) : Token cfg s' := by
  have hhome : home cfg a.id = t := ((h.active t a.id).1 hid).1
  rw [← hhome] at hflow
  refine h.answered ht hid hrole hcontrol hthread hothers hclient (fun u _ b hb => ?_) ?_
    (fun u _ b hmem => (hwaiting u b hmem).imp (fun hold => hold) fun heq => ⟨heq, rfl⟩)
  · refine hflow.count_of_notMem (fun hmem => hb ?_) List.not_mem_nil u
    rw [List.mem_singleton.1 hmem]
  · refine h.own_pushed (fun role => ?_) (fun role => ?_) hflow
    · rw [hcontrol]
      cases role <;> rfl
    · rw [hrole]
      cases role <;> rfl

/-- The step of a thread loses no handle while the stop request is not raised. -/
theorem keeps_of_point {t : Nat} (pick : Option Nat) (hstop : s.q.stopRequested = false)
    {p : Point (Handle cfg.terminalCount)} (hpoint : s.q.thread t = p)
    (hroom : ∀ a, p = .inflightPush a →
      (s.q.context t).readyTasksInternal.length < cfg.queue.internalCapacity) :
    Keeps cfg.queue s
      (.loop t pick : TaskQueue.Action (Handle cfg.terminalCount) (Step cfg.terminalCount)) := by
  subst hpoint
  unfold Keeps
  dsimp only
  split
  · exact hstop
  · next a heq => exact hroom a heq
  · trivial

theorem loop (h : Token cfg s) {t : Nat} (pick : Option Nat) (ht : t < cfg.threadCount)
    (hstop : s.q.stopRequested = false)
    (hmove : LoopMove cfg.queue (terminals cfg) s t s') : Token cfg s' := by
  have hmove' := hmove
  obtain ⟨hinternal, -⟩ := terminalCount_le_capacity cfg
  have hlength := s.q.length_stored t
  have hkeeps {p} := keeps_of_point (s := s) (t := t) (p := p) pick hstop
  cases hmove' with
  | exit hpoint hstop' => simp [hstop] at hstop'
  | batchBreak b rest hpoint hstop' => simp [hstop] at hstop'
  | drain hpoint _ | batchDone hpoint | inflightEnter hpoint _ _ | inflightLeave hpoint
  | inflightPop _ _ _ hpoint _ _ | inflightMiss _ hpoint _ _ | inflightReject _ hpoint _
  | inflightUndo hpoint | sleepDone hpoint | internalNone hpoint _ =>
    exact h.still ht hmove rfl rfl rfl rfl (hkeeps hpoint (by simp)) (by simp) (by simp [hpoint])
  | inflightAdd hpoint =>
    obtain ⟨hclient, admitted, hhistory⟩ := inflightFetchAdd_rest (c := cfg.queue) s t
    exact h.still ht hmove hclient (by rw [hhistory]) (by rw [hhistory]) (by rw [hhistory])
      (hkeeps hpoint (by simp)) (by simp) (by simp [hpoint])
  | inflightPush b hpoint hroom =>
    exact h.still ht hmove rfl rfl rfl rfl (hkeeps hpoint fun _ _ => hroom) (by simp)
      (by simp [hpoint])
  | inflightDrop b hpoint hfull =>
    have hle := h.length_le ht
    simp only [hpoint, Point.held, List.length_singleton] at hlength
    omega
  | awaken i b hpoint _ _ =>
    exact h.still ht hmove rfl rfl rfl rfl (hkeeps hpoint (by simp)) (by simp [hpoint])
      (by simp [hpoint])
  | awakenFull i b hpoint hpick hfull =>
    have hle := h.length_le ht
    have hpos := (List.getElem?_eq_some_iff.1 hpick).1
    omega
  | incReject back b hint prev hpoint _ =>
    exact h.still ht hmove rfl rfl rfl rfl (hkeeps hpoint (by simp)) (by simp) (by simp)
  | incUndo back b hint hpoint =>
    exact h.still ht hmove rfl rfl rfl rfl (hkeeps hpoint (by simp)) (by simp) (by simp)
  | batchResume b rest hpoint _ =>
    have hflow := hmove.flow_of_keeps ht [] [b] (hkeeps hpoint (by simp)) (by simp)
      (List.append_nil _).symm rfl
    rw [hpoint] at hflow
    exact h.resume ht (h.idle (by simp [hpoint])) (Function.update_self ..)
      (fun u hu => by simp [hu])
      (fun _ => rfl) rfl hflow
  | internalResume b rest hpoint hready =>
    have hflow := hmove.flow_of_keeps ht [] [b] (hkeeps hpoint (by simp)) (by simp)
      (List.append_nil _).symm rfl
    rw [hpoint] at hflow
    exact h.resume ht (h.idle (by simp [hpoint])) (Function.update_self ..)
      (fun u hu => by simp [hu])
      (TTaskQueue.waiting_setContext_same rfl) rfl hflow
  | incAdmit back b hint prev hpoint hprev =>
    obtain ⟨hrole, -, hid, hcontrol⟩ := h.inside t ht b hint true (by
      simp [hpoint, Point.request, hprev])
    have hflow := hmove.flow_of_keeps ht [] [] (hkeeps hpoint (by simp)) (by simp)
      (List.append_nil _).symm (List.append_nil _).symm
    refine h.answered ht hid hrole hcontrol (Function.update_self ..)
      (fun u hu => by simp [hu]) rfl
      (fun u _ a _ => hflow.stored_eq u a) (fun u hu role => ?_) (fun u _ a hmem => .inl hmem)
    rw [hflow.stored_eq]
    refine h.own_stored (fun role => ?_) (fun role => by cases role <;> rfl) u hu role
    rw [hcontrol]
    cases role <;> rfl
  | incRefuse back b hint hpoint hroom =>
    obtain ⟨hrole, rfl, hid, hcontrol⟩ := h.inside t ht b hint false (by
      simp [hpoint, Point.request])
    have hhome : home cfg b.id = t := ((h.active t b.id).1 hid).1
    have hflow := hmove.flow_of_keeps ht [b] [] (hkeeps hpoint (by simp)) (by simp) rfl
      (List.append_nil _).symm
    rw [hpoint] at hflow
    have hclient : (terminals cfg).notify s.client
        (.finished (some t) (.incInflight b b.id.val) .refused) =
        s.client.move (some t) b.id (.queued .admitted) := by
      simp [terminals, finished, Call.subject, hcontrol, Control.suspended]
    have htarget : (Point.running back (.incPush b b.id.val)).target cfg.queue t = t := hhome
    rw [htarget] at hflow
    refine h.refused ht hid hrole hcontrol (Function.update_self ..)
      (fun u hu => by simp [hu]) hclient (fun u a hmem => ?_) hflow
    simp only [finish_q, System.recordEnqueued_q, System.accept_q, System.setContext_q,
      System.setThread_q, TTaskQueue.waiting_setContext, TTaskQueue.waiting_setThread] at hmem
    by_cases hut : u = cfg.queue.home b.id.val
    · subst hut
      rwa [Function.update_self, List.mem_append, List.mem_singleton] at hmem
    · rw [Function.update_of_ne hut] at hmem
      exact .inl hmem
  | incThrow back b hint hpoint hfull =>
    obtain ⟨-, rfl, hid, hcontrol⟩ := h.inside t ht b hint false (by
      simp [hpoint, Point.request])
    have hhome : cfg.queue.home b.id.val = t := ((h.active t b.id).1 hid).1
    have hlt := h.length_lt ht (show ∀ role, (s.client.control b.id).stores role = false by
      intro role
      rw [hcontrol]
      cases role <;> rfl)
    rw [hhome] at hfull
    omega

/-- A call stores a handle of terminal `id`. -/
theorem store (h : Token cfg s) {id : Fin cfg.terminalCount} {role : Role}
    (hsuspends : Suspends (s.client.control id) role) (hthread : s'.q.thread = s.q.thread)
    (hwaiting : ∀ u, s'.q.waiting u = s.q.waiting u)
    (hcontrol : s'.client.control =
      Function.update s.client.control id ((s.client.control id).suspended role))
    (hothers : ∀ u b, b ≠ id → (s'.client.active u = some b ↔ s.client.active u = some b))
    (hself : ∀ u, s'.client.active u = some id ↔
      home cfg id = u ∧ ((s.client.control id).suspended role).onThread = true)
    (hbefore : ∀ u b, s'.client.active u = some b → s.client.active u = some b)
    (hfault : s'.client.fault = s.client.fault)
    (hflow : Flow s s' (home cfg id) [⟨id, role⟩] [] [] []) : Token cfg s' := by
  obtain ⟨hrequests, hwaits⟩ := h.not_asking hsuspends.asks
  refine h.update id _ hcontrol (fun u _ a ha => ?_) (fun u hu r => ?_) hothers hself
    (fun u b hb => by rw [hthread]; exact h.running u b (hbefore u b hb))
    (fun u hu a hint slot hr => ?_) (fun u hu a hmem => ?_) (hfault.trans h.fault)
  · refine hflow.count_of_notMem (fun hmem => ha ?_) List.not_mem_nil u
    rw [List.mem_singleton.1 hmem]
  · exact h.own_pushed (a := ⟨id, role⟩) hsuspends.stores hsuspends.stores' hflow u hu r
  · rw [hthread] at hr
    exact .inl ⟨hrequests u hu a hint slot hr, hr⟩
  · rw [hwaiting] at hmem
    exact .inl ⟨hwaits u hu a hmem, hmem⟩

theorem move_before {n : Nat} {client : Terminals n} {t : Nat} {id : Fin n} {control : Control}
    {u : Nat} {b : Fin n} (hb : (client.move (some t) id control).active u = some b) :
    client.active u = some b := by
  simp only [Terminals.move] at hb
  split at hb
  · exact hb
  · by_cases hut : u = t
    · subst hut
      simp at hb
    · simpa [hut] using hb

/-- `TaskReadyThreadSafe` for a suspended coroutine, on a queue thread or outside. -/
theorem threadSafe (h : Token cfg s) {thread : Option Nat} {id : Fin cfg.terminalCount}
    {role : Role} (hsuspends : Suspends (s.client.control id) role)
    (hthread : match thread with
      | some t => s.client.active t = some id
      | none => (s.client.control id).onThread = ((s.client.control id).suspended role).onThread)
    (hmove : ThreadSafeMove cfg.queue (terminals cfg) s thread ⟨id, role⟩ id.val s') :
    Token cfg s' := by
  obtain ⟨-, hexternal⟩ := terminalCount_le_capacity cfg
  have hlt := h.length_lt (home_lt id) hsuspends.stores
  have hlength := s.q.length_stored (home cfg id)
  obtain ⟨accepted, hflow⟩ := hmove.flow
  cases hmove with
  | push hroom =>
    obtain rfl : [⟨id, role⟩] = accepted := List.append_cancel_left hflow.accepted
    refine h.store hsuspends rfl (TTaskQueue.waiting_setContext_same rfl) rfl ?_ ?_ ?_ rfl hflow
    · cases thread with
      | some t => exact (h.move_active hthread _).1
      | none => exact fun _ _ _ => Iff.rfl
    · cases thread with
      | some t => exact (h.move_active hthread _).2
      | none =>
        intro u
        rw [← hthread]
        exact h.active u id
    · cases thread with
      | some t => exact fun _ _ hb => move_before hb
      | none => exact fun _ _ hb => hb
  | full hfull =>
    have hfull' : cfg.queue.externalCapacity ≤
        (s.q.context (home cfg id)).readyTasksExternal.length := hfull
    omega

/-- A terminal enters `IncInflight`. -/
theorem request (h : Token cfg s) {t : Nat} (ht : t < cfg.threadCount)
    {id : Fin cfg.terminalCount} (hid : s.client.active t = some id)
    (hcontrol : s.client.control id = .running .request)
    {back : Back (Handle cfg.terminalCount)} {prev n : UInt64}
    (hq : s'.q = (s.q.setCount n).setThread t
      (.running back (.incCompare ⟨id, .terminal⟩ id.val prev)))
    (hpoint : s.q.thread t = .running back .client)
    (hclient : s'.client = s.client.move (some t) id (.running .requesting)) : Token cfg s' := by
  obtain ⟨hothers, hself⟩ := h.move_active hid (.running .requesting)
  have hasks : (s.client.control id).asks = false := by rw [hcontrol]; rfl
  obtain ⟨hrequests, hwaits⟩ := h.not_asking hasks
  have hstored : ∀ u, s'.q.stored u = s.q.stored u := by
    intro u
    rw [hq]
    exact TTaskQueue.stored_setThread_same (q := s.q.setCount n) hpoint (by rfl) u
  refine h.update id (.running .requesting) (by rw [hclient]; rfl) (fun u _ a _ => by rw [hstored])
    (fun u hu role => ?_) (by rw [hclient]; exact hothers) (by rw [hclient]; exact hself)
    (fun u b hb => ?_) (fun u hu a hint slot hr => ?_)
    (fun u hu a hmem => ?_) (by rw [hclient]; exact h.fault)
  · rw [hstored]
    refine h.own_stored (fun r => ?_) (fun r => by cases r <;> rfl) u hu role
    rw [hcontrol]
    cases r <;> rfl
  · rw [hq]
    by_cases hut : u = t
    · subst hut
      exact ⟨back, _, Function.update_self ..⟩
    · rw [hclient] at hb
      obtain ⟨back', inside, hrun⟩ := h.running u b (move_before hb)
      exact ⟨back', inside, by simpa [hut] using hrun⟩
  · rw [hq] at hr
    by_cases hut : u = t
    · subst hut
      simp only [TTaskQueue.setThread_thread, if_true, Point.request, Option.some.injEq,
        Prod.mk.injEq] at hr
      refine .inr ⟨hr.1.symm, hr.2.1.symm, ?_, rfl⟩
      rw [hclient]
      exact (hself u).2 ⟨((h.active u id).1 hid).1, rfl⟩
    · simp only [TTaskQueue.setThread_thread, if_neg hut, TTaskQueue.setCount_thread] at hr
      exact .inl ⟨hrequests u hu a hint slot hr, hr⟩
  · rw [hq] at hmem
    exact .inl ⟨hwaits u hu a hmem, hmem⟩

theorem call (h : Token cfg s) {t : Nat} (ht : t < cfg.threadCount)
    {back : Back (Handle cfg.terminalCount)} (hpoint : s.q.thread t = .running back .client)
    {c : Call (Handle cfg.terminalCount)} {id : Fin cfg.terminalCount}
    (hid : s.client.active t = some id) (hcall : TerminalCall (s.client.control id) id c)
    (hmove : CallMove cfg.queue (terminals cfg) (s.setClient (s.client.entering t id c)) t back c
      s') : Token cfg s' := by
  cases hcall with
  | asyncSleep role hsuspends =>
    obtain ⟨accepted, hflow⟩ := CallMove.flow (s := s) hpoint hmove
    cases hmove with
    | asyncSleep _ _ =>
      obtain rfl : [⟨id, role⟩] = accepted := List.append_cancel_left hflow.accepted
      obtain ⟨hothers, hself⟩ := h.move_active hid ((s.client.control id).suspended role)
      exact h.store hsuspends rfl (TTaskQueue.waiting_setContext_same rfl) rfl hothers hself
        (fun _ _ hb => move_before hb) rfl hflow
  | taskReadyThreadSafe role hsuspends =>
    cases hmove with
    | threadSafe _ _ hmove => exact h.threadSafe hsuspends hid hmove
  | decInflight after hcontrol =>
    cases hmove with
    | decInflight _ =>
      have hclient := release_client cfg t hcontrol
      have hnext : Token cfg (s.setClient ((terminals cfg).notify s.client
          (.finished (some t) (.decInflight ⟨id, .terminal⟩) .ok))) := by
        rw [hclient]
        refine h.quiet hid (fun role => ?_) ?_ rfl rfl rfl
        · rw [hcontrol]
          cases after <;> cases role <;> rfl
        · rw [hcontrol]
          rfl
      exact ⟨hnext.stored, hnext.active, hnext.running, hnext.inside, hnext.waiting, hnext.fault⟩
  | incInflight hcontrol =>
    cases hmove with
    | incTake _ _ _ => exact h.request ht hid hcontrol rfl hpoint rfl
    | incExceed _ _ _ => exact h.request ht hid hcontrol rfl hpoint rfl

/-- Control goes back to `RunThread`. -/
theorem ret (h : Token cfg s) {t : Nat} {back : Back (Handle cfg.terminalCount)}
    (hpoint : s.q.thread t = .running back .client) (hid : s.client.active t = none) :
    Token cfg (s.setThread t back.point) := by
  have hstored := TTaskQueue.stored_setThread_same hpoint back.held_point
  refine ⟨fun u hu a => ?_, h.active, fun u b hb => ?_, fun u hu a hint slot hr => ?_, h.waiting,
    h.fault⟩
  · rw [System.setThread_q, hstored]
    exact h.stored u hu a
  · by_cases hut : u = t
    · subst hut
      have hb' : s.client.active u = some b := hb
      rw [hid] at hb'
      cases hb'
    · obtain ⟨back', inside, hrun⟩ := h.running u b hb
      exact ⟨back', inside, by simpa [hut] using hrun⟩
  · by_cases hut : u = t
    · subst hut
      simp only [System.setThread_q, TTaskQueue.setThread_thread, if_true] at hr
      cases back <;> cases hr
    · exact h.inside u hu a hint slot (by simpa [hut] using hr)

/-- Every step before the threads are stopped keeps the invariant. -/
theorem step (h : Token cfg s) (hjoin : s.q.join = .notCalled)
    (hstop : s.q.stopRequested = false) (hstop' : s'.q.stopRequested = false)
    {action : TaskQueue.Action (Handle cfg.terminalCount) (Step cfg.terminalCount)}
    (hmove : Move cfg.queue (terminals cfg) s action s') : Token cfg s' := by
  cases hmove with
  | loop t pick ht hmove => exact h.loop pick ht hstop hmove
  | call t c back state ht hpoint hclient hmove =>
    obtain ⟨id, hid, hcall, rfl⟩ := call_move hclient
    exact h.call ht hpoint hid hcall hmove
  | callOutside a threadHint state hclient hmove =>
    obtain ⟨id, role⟩ := a
    have hcall : Terminal.call cfg s.client none (.taskReadyThreadSafe ⟨id, role⟩ threadHint) =
        some state := hclient
    obtain ⟨rfl, rfl, hthread, hsuspends⟩ := callOutside_move hcall
    exact h.threadSafe hsuspends hthread hmove
  | ret t back state ht hpoint hclient =>
    simp only [terminals] at hclient
    split at hclient
    · next hid =>
      cases hclient
      exact h.ret hpoint hid
    · cases hclient
  | own i state hclient => exact h.own (own_move hclient)
  | wakeup => exact ⟨h.stored, h.active, h.running, h.inside, h.waiting, h.fault⟩
  | requestStop _ => cases hstop'
  | join hmove => exact absurd hjoin hmove.called

theorem start (cfg : RunConfig) : Token cfg (System.start (Terminals.start cfg)) where
  stored := by
    intro t _ h
    simp [System.start, TTaskQueue.started, TTaskQueue.stored, TPerThreadContext.held,
      TPerThreadContext.empty, Point.held, Terminals.start, Control.stores]
  active := by simp [System.start, Terminals.start, Control.onThread]
  running := by simp [System.start, Terminals.start]
  inside := by simp [System.start, TTaskQueue.started, Point.request]
  waiting := by
    simp [System.start, TTaskQueue.started, TTaskQueue.waiting, TPerThreadContext.empty]
  fault := rfl

end Token

/-- The stop request is never taken back. -/
theorem Move.stopRequested_mono {η γ ι : Type} {c : TaskQueue.Config} {client : Client η γ ι}
    {s s' : System η γ} {action : TaskQueue.Action η ι} (hmove : Move c client s action s')
    (hstop : s'.q.stopRequested = false) : s.q.stopRequested = false := by
  cases hmove with
  | loop t pick _ hmove => cases hmove <;> simpa using hstop
  | call t call back state _ _ _ hmove =>
    cases hmove with
    | threadSafe _ _ hmove => cases hmove <;> simpa using hstop
    | _ => simpa using hstop
  | callOutside _ _ state _ hmove => cases hmove <;> simpa using hstop
  | requestStop _ => cases hstop
  | join hmove => cases hmove <;> exact hstop
  | _ => exact hstop

theorem join_notCalled {q : TTaskQueue (Handle cfg.terminalCount)}
    (hstopped : q.join ≠ .notCalled → q.stopRequested = true) (hstop : q.stopRequested = false) :
    q.join = .notCalled := by
  by_contra hne
  rw [hstopped hne] at hstop
  cases hstop

/-- The rule for an invariant until the queue's threads are stopped. -/
theorem run_until_stop {I : State cfg → Prop} (hstart : I (.start (.start cfg)))
    (hstep : ∀ s action s', I s → s.q.join = .notCalled → s.q.stopRequested = false →
      s'.q.stopRequested = false → (lts cfg).step s action s' → I s') {s₀ s : State cfg}
    {actions : List (TaskQueue.Action (Handle cfg.terminalCount) (Step cfg.terminalCount))}
    (hinit : (lts cfg).init s₀) (hrun : (lts cfg).Run s₀ actions s)
    (hstop : s.q.stopRequested = false) : s.q.join = .notCalled ∧ I s := by
  have h : (s.q.join ≠ .notCalled → s.q.stopRequested = true) ∧
      (s.q.stopRequested = false → I s) := by
    refine hrun.preserves (I := fun s => (s.q.join ≠ .notCalled → s.q.stopRequested = true) ∧
      (s.q.stopRequested = false → I s)) ?_ ?_
    · rintro s action s' ⟨hstopped, h⟩ hlast
      have hmove := step_move hlast
      refine ⟨hmove.stopped hstopped, fun hstop' => ?_⟩
      have hstop := Move.stopRequested_mono hmove hstop'
      exact hstep s action s' (h hstop) (join_notCalled hstopped hstop) hstop hstop' hlast
    · obtain ⟨state, rfl, rfl⟩ := hinit
      exact ⟨fun hjoin => absurd rfl hjoin, fun _ => hstart⟩
  exact ⟨join_notCalled h.1 hstop, h.2 hstop⟩

theorem run_token {s₀ s : State cfg}
    {actions : List (TaskQueue.Action (Handle cfg.terminalCount) (Step cfg.terminalCount))}
    (hinit : (lts cfg).init s₀) (hrun : (lts cfg).Run s₀ actions s)
    (hstop : s.q.stopRequested = false) : s.q.join = .notCalled ∧ Token cfg s :=
  run_until_stop (.start cfg) (fun _ _ _ h hjoin hstop hstop' hlast =>
    h.step hjoin hstop hstop' (step_move hlast)) hinit hrun hstop

/-- What thread affinity says of a state and its next steps: each terminal has at most one stored
handle, at its own thread; a handle is resumed only on that thread, when it is suspended and stored
and no other code runs there, and is not stored any more afterwards; the three unlocked queues of a
context are touched by its own thread only; and no `TryPush` fails. -/
structure Affinity (cfg : RunConfig) (s : State cfg) : Prop where
  once : ∀ id, ∑ t ∈ range cfg.threadCount, ((s.q.stored t).count ⟨id, .terminal⟩ +
    (s.q.stored t).count ⟨id, .transaction⟩) ≤ 1
  at_home : ∀ t < cfg.threadCount, ∀ h ∈ s.q.stored t, t = h.id.val % cfg.threadCount
  no_fault : s.client.fault = false
  resumes : ∀ action s' h, (lts cfg).step s action s' →
    s'.history.resumed = s.history.resumed ++ [h] →
    (∃ pick, action = .loop (h.id.val % cfg.threadCount) pick) ∧
      (s.client.control h.id).stores h.role = true ∧
      s.client.active (h.id.val % cfg.threadCount) = none ∧
      (s'.client.control h.id).stores h.role = false
  touches : ∀ action s' u, (lts cfg).step s action s' →
    action.touched cfg.queue s = some u → action.thread = some u
  changes : ∀ action s' u, (lts cfg).step s action s' → action.thread ≠ some u →
    (s'.q.context u).unlocked = (s.q.context u).unlocked
  pushes : ∀ action s', (lts cfg).step s action s' → pushFails cfg.queue s action = false

namespace Token

variable {s s' : State cfg}

theorem once (h : Token cfg s) (id : Fin cfg.terminalCount) :
    ∑ t ∈ range cfg.threadCount, ((s.q.stored t).count ⟨id, .terminal⟩ +
      (s.q.stored t).count ⟨id, .transaction⟩) ≤ 1 := by
  have hother : ∀ t ∈ range cfg.threadCount, t ≠ home cfg id →
      (s.q.stored t).count ⟨id, .terminal⟩ + (s.q.stored t).count ⟨id, .transaction⟩ = 0 := by
    intro t ht hne
    rw [h.stored t (mem_range.1 ht), h.stored t (mem_range.1 ht)]
    simp [hne.symm]
  rw [sum_eq_single_of_mem (home cfg id) (mem_range.2 (home_lt id)) hother, ← count_map_fst]
  exact List.nodup_iff_count_le_one.1 (h.ids_nodup (home_lt id)) id

theorem at_home (h : Token cfg s) {t : Nat} (ht : t < cfg.threadCount)
    {a : Handle cfg.terminalCount} (hmem : a ∈ s.q.stored t) :
    t = a.id.val % cfg.threadCount := by
  have hpos := List.count_pos_iff.2 hmem
  rw [h.stored t ht a] at hpos
  split at hpos
  · next hstores => exact hstores.1.symm
  · omega

theorem resumes (h : Token cfg s)
    {action : TaskQueue.Action (Handle cfg.terminalCount) (Step cfg.terminalCount)}
    (hmove : Move cfg.queue (terminals cfg) s action s') {a : Handle cfg.terminalCount}
    (hresumed : s'.history.resumed = s.history.resumed ++ [a]) :
    (∃ pick, action = .loop (a.id.val % cfg.threadCount) pick) ∧
      (s.client.control a.id).stores a.role = true ∧
      s.client.active (a.id.val % cfg.threadCount) = none ∧
      (s'.client.control a.id).stores a.role = false := by
  rcases hmove.resumes with hsame | ⟨t, pick, b, ht, rfl, hb, hmem, hclient, hpoint⟩
  · rw [hsame] at hresumed
    simp at hresumed
  · obtain rfl : b = a := by simpa [hresumed] using hb.symm
    have hhome := h.at_home ht hmem
    have hidle := h.idle hpoint
    obtain ⟨-, hstores, control, hnone, -, -, -, heq⟩ := h.resumed_eq ht hidle hmem
    refine ⟨⟨pick, by rw [← hhome]⟩, hstores, ?_, ?_⟩
    · rw [← hhome]
      exact Option.eq_none_iff_forall_ne_some.2 hidle
    · have hclient' : s'.client = resumed s.client t b := hclient
      rw [hclient', heq]
      simpa using hnone b.role

/-- A terminal that runs on thread `t` has its context there. -/
theorem home_eq (h : Token cfg s) {t : Nat} {id : Fin cfg.terminalCount}
    (hid : s.client.active t = some id) : cfg.queue.home id.val = t :=
  ((h.active t id).1 hid).1

theorem target_eq (h : Token cfg s) {t : Nat} (ht : t < cfg.threadCount) :
    (s.q.thread t).target cfg.queue t = t := by
  unfold Point.target
  split
  · next back a threadHint hpoint =>
    obtain ⟨-, rfl, hid, -⟩ := h.inside t ht a threadHint false (by simp [hpoint, Point.request])
    exact h.home_eq hid
  · rfl

theorem touches (h : Token cfg s)
    {action : TaskQueue.Action (Handle cfg.terminalCount) (Step cfg.terminalCount)}
    (hmove : Move cfg.queue (terminals cfg) s action s') {u : Nat}
    (htouched : action.touched cfg.queue s = some u) : action.thread = some u := by
  cases hmove with
  | loop t pick ht _ =>
    simp only [Action.touched, h.target_eq ht] at htouched
    exact htouched
  | call t c back state ht _ hclient _ =>
    obtain ⟨id, hid, hcall, -⟩ := call_move hclient
    cases hcall with
    | asyncSleep role _ =>
      simp only [Action.touched, h.home_eq hid] at htouched
      exact htouched
    | _ => cases htouched
  | _ => cases htouched

theorem changes (h : Token cfg s) (hjoin : s.q.join = .notCalled)
    {action : TaskQueue.Action (Handle cfg.terminalCount) (Step cfg.terminalCount)}
    (hmove : Move cfg.queue (terminals cfg) s action s') {u : Nat}
    (hother : action.thread ≠ some u) : (s'.q.context u).unlocked = (s.q.context u).unlocked := by
  cases hmove with
  | loop t pick ht hmove =>
    have hne : u ≠ t := by
      rintro rfl
      exact hother rfl
    rw [hmove.context hne (by rwa [h.target_eq ht])]
  | call t c back state ht _ hclient hmove =>
    have hne : u ≠ t := by
      rintro rfl
      exact hother rfl
    obtain ⟨id, hid, hcall, -⟩ := call_move hclient
    refine hmove.unlocked ?_
    cases hcall with
    | asyncSleep role _ => rwa [Call.target, h.home_eq hid]
    | taskReadyThreadSafe role _ => rwa [Call.target, h.home_eq hid]
    | _ => exact hne
  | callOutside a threadHint state _ hmove => exact hmove.unlocked u
  | join hmove => exact absurd hjoin hmove.called
  | _ => rfl

/-- The queues of a thread that takes a step have room for one more handle. -/
theorem loop_push (h : Token cfg s) {t : Nat} (ht : t < cfg.threadCount) (pick : Option Nat) :
    pushFails cfg.queue s
      (.loop t pick : TaskQueue.Action (Handle cfg.terminalCount) (Step cfg.terminalCount)) =
      false := by
  obtain ⟨hinternal, -⟩ := terminalCount_le_capacity cfg
  have hlength := s.q.length_stored t
  have hle := h.length_le ht
  unfold pushFails
  dsimp only
  split
  · next b hpoint =>
    rw [hpoint] at hlength
    simp only [Point.held, List.length_singleton] at hlength
    exact decide_eq_false (by omega)
  · cases hpick : pick.bind fun i => (s.q.context t).sleepingTasks[i]? with
    | none => rfl
    | some b =>
      obtain ⟨i, -, hget⟩ := Option.bind_eq_some_iff.1 hpick
      have hpos := (List.getElem?_eq_some_iff.1 hget).1
      exact decide_eq_false (by omega)
  · next back a threadHint hpoint =>
    obtain ⟨-, rfl, hid, hcontrol⟩ := h.inside t ht a threadHint false (by
      simp [hpoint, Point.request])
    have hnone : ∀ role, (s.client.control a.id).stores role = false := by
      intro role
      rw [hcontrol]
      cases role <;> rfl
    have hlt := h.length_lt ht hnone
    have hwaiting : (s.q.waiting t).length =
        (s.q.context t).inflightWaitingTasksInternal.length := rfl
    rw [h.home_eq hid]
    exact decide_eq_false (by omega)
  · rfl

/-- The external queue has room for the handle of a coroutine that is not stored. -/
theorem external_push (h : Token cfg s) {id : Fin cfg.terminalCount} {role : Role}
    (hsuspends : Suspends (s.client.control id) role) :
    decide (cfg.queue.externalCapacity ≤
      (s.q.context (cfg.queue.home id.val)).readyTasksExternal.length) = false := by
  obtain ⟨-, hexternal⟩ := terminalCount_le_capacity cfg
  have hlt := h.length_lt (home_lt id) hsuspends.stores
  have hlength := s.q.length_stored (home cfg id)
  refine decide_eq_false ?_
  unfold home at hlt hlength
  omega

theorem pushes (h : Token cfg s)
    {action : TaskQueue.Action (Handle cfg.terminalCount) (Step cfg.terminalCount)}
    (hmove : Move cfg.queue (terminals cfg) s action s') :
    pushFails cfg.queue s action = false := by
  cases hmove with
  | loop t pick ht _ => exact h.loop_push ht pick
  | call t c back state ht _ hclient _ =>
    obtain ⟨id, -, hcall, -⟩ := call_move hclient
    cases hcall with
    | taskReadyThreadSafe role hsuspends => exact h.external_push hsuspends
    | _ => rfl
  | callOutside a threadHint state hclient _ =>
    obtain ⟨id, role⟩ := a
    have hcall : Terminal.call cfg s.client none (.taskReadyThreadSafe ⟨id, role⟩ threadHint) =
        some state := hclient
    obtain ⟨rfl, -, -, hsuspends⟩ := callOutside_move hcall
    exact h.external_push hsuspends
  | _ => rfl

theorem affinity (h : Token cfg s) (hjoin : s.q.join = .notCalled) : Affinity cfg s where
  once := h.once
  at_home := fun _ ht _ hmem => h.at_home ht hmem
  no_fault := h.fault
  resumes := fun _ _ _ hstep hresumed => h.resumes (step_move hstep) hresumed
  touches := fun _ _ _ hstep htouched => h.touches (step_move hstep) htouched
  changes := fun _ _ _ hstep hother => h.changes hjoin (step_move hstep) hother
  pushes := fun _ _ hstep => h.pushes (step_move hstep)

end Token

/-- Until the queue's threads are stopped, every run keeps thread affinity. -/
theorem run_affinity {s₀ s : State cfg}
    {actions : List (TaskQueue.Action (Handle cfg.terminalCount) (Step cfg.terminalCount))}
    (hinit : (lts cfg).init s₀) (hrun : (lts cfg).Run s₀ actions s)
    (hstop : s.q.stopRequested = false) : Affinity cfg s := by
  obtain ⟨hjoin, htoken⟩ := run_token hinit hrun hstop
  exact htoken.affinity hjoin

end Invariant

/-- One warehouse, two threads and one slot, without delays. -/
def oneWarehouse : RunConfig where
  warehouseCount := 1
  maxInflight := 1
  threadCount := 2
  noDelays := true
  simulateTransactionMs := 0
  simulateTransactionSelect1 := 0
  threadCount_pos := by decide
  threadCount_le := by decide
  terminals_le := by decide

def firstTerminal : Fin oneWarehouse.terminalCount := ⟨0, by decide⟩

/-- Terminals 0 and 2 are started; terminal 0 takes the slot, awaits its first statement on thread 0
and is pushed there again by an I/O thread. -/
def awaitStatement : List (TaskQueue.Action (Handle oneWarehouse.terminalCount)
    (Step oneWarehouse.terminalCount)) :=
  let second : Fin oneWarehouse.terminalCount := ⟨2, by decide⟩
  ([.call none (.taskReadyThreadSafe ⟨firstTerminal, .terminal⟩ 0),
    .call none (.taskReadyThreadSafe ⟨second, .terminal⟩ 2), .loop 0 none, .loop 0 none,
    .own (.advance 0), .call (some 0) (.incInflight ⟨firstTerminal, .terminal⟩ 0),
    .loop 0 none] : List (TaskQueue.Action _ (Step _))) ++
  List.replicate 3 (TaskQueue.Action.own (Step.advance 0)) ++
  [TaskQueue.Action.own (Step.submit 0)] ++
  List.replicate 3 (TaskQueue.Action.own (Step.advance 0)) ++
  ([.ret 0, .own (.complete firstTerminal (.execute .ok .none .ok)),
    .call none (.taskReadyThreadSafe ⟨firstTerminal, .transaction⟩ 0)] :
      List (TaskQueue.Action _ (Step _)))

theorem run_affinity_await_statement :
    ∃ s, (lts oneWarehouse).Run (.start (.start oneWarehouse)) awaitStatement s ∧
      s.q.stored 0 = [⟨⟨2, by decide⟩, .terminal⟩, ⟨⟨0, by decide⟩, .transaction⟩] ∧
      Affinity oneWarehouse s := by
  let next := fun (s : State oneWarehouse) a => step oneWarehouse.queue (terminals oneWarehouse) s a
  let s := (awaitStatement.foldlM next (.start (.start oneWarehouse))).get (by decide +kernel)
  have hrun : (lts oneWarehouse).Run (.start (.start oneWarehouse)) awaitStatement s :=
    Lts.run_of_foldlM (Option.some_get _).symm
  exact ⟨s, hrun, by decide +kernel,
    run_affinity ⟨.start oneWarehouse, rfl, rfl⟩ hrun (by decide +kernel)⟩

end Tpcc.Terminal
