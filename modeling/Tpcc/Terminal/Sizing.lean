import Tpcc.Terminal.PoolUse

/-! The sizes that `RunSync` gives the connection pool and its I/O threads, against the number of
terminals that the task queue may admit at once.  A `maxInflight` of 0 is no limit to the queue and
an empty pool to `RunSync`. -/

namespace Tpcc.Terminal

open Lib TaskQueue Db

namespace RunConfig

variable (cfg : RunConfig)

/-- The number of I/O threads, from `IOThreads`. -/
def ioThreads (setting : Nat) : Nat :=
  max (if setting = 0 then cfg.maxInflight.toNat else setting) cfg.poolSize

/-- The terminals that the task queue may admit at once: its limit is `maxInflight`, and 0 is none. -/
def admissible : Nat :=
  if cfg.maxInflight = 0 then cfg.terminalCount else min cfg.terminalCount cfg.maxInflight.toNat

end RunConfig

/-- A statement of the terminal has been submitted to the I/O threads and its future is not set. -/
def Control.submitted : Control → Bool
  | .transaction _ x _ => x.complete.isSome
  | _ => false

/-- The terminals with a statement at the I/O threads. -/
def submitted {cfg : RunConfig} (s : State cfg) : List (Fin cfg.terminalCount) :=
  (List.finRange cfg.terminalCount).filter fun id => (s.client.control id).submitted

/-- Until the queue's threads are stopped, a terminal that calls `AcquireSession` goes on, and there
is an I/O thread for every statement. -/
structure Served (cfg : RunConfig) (setting : Nat) (s : State cfg) : Prop where
  acquires : ∀ t id k, s.client.active t = some id → s.client.control id = .running (.attempt k) →
    ∃ s', (lts cfg).step s (.own (.advance t)) s'
  threads : (submitted s).length ≤ cfg.ioThreads setting

/-- There are connections and I/O threads for the terminals that the queue may admit at once. -/
structure Fits (cfg : RunConfig) (setting : Nat) : Prop where
  connections : cfg.admissible ≤ cfg.poolSize
  threads : cfg.admissible ≤ cfg.ioThreads setting
  served : ∀ s₀ actions s, (lts cfg).init s₀ → (lts cfg).Run s₀ actions s →
    s.q.stopRequested = false → Served cfg setting s

variable {cfg : RunConfig} {s : State cfg}

/-- A terminal with a statement at the I/O threads has a slot. -/
theorem submitted_inCycle {control : Control} (h : control.submitted = true) :
    control.asks = false ∧ control.inCycle = true := by
  cases control with
  | transaction k x suspended => exact ⟨rfl, rfl⟩
  | _ => cases h

theorem submitted_length_le (h : Running cfg s) (hjoin : s.q.join = .notCalled) :
    (submitted s).length ≤ cfg.poolSize :=
  h.inCycle_length_le hjoin ((List.nodup_finRange _).filter _) fun _ hid =>
    submitted_inCycle (List.mem_filter.1 hid).2

/-- The sizes are right, and no terminal waits, if and only if there is a limit. -/
theorem fits_iff (cfg : RunConfig) (setting : Nat) (hwarehouses : 1 ≤ cfg.warehouseCount)
    (hneeds : cfg.needsConnections = true) : Fits cfg setting ↔ cfg.maxInflight ≠ 0 := by
  constructor
  · intro h hzero
    -- without a limit all the terminals are admitted, and the pool is empty
    have hconnections := h.connections
    have hterminals : cfg.terminalCount = cfg.warehouseCount * 10 := rfl
    rw [RunConfig.admissible, if_pos hzero, RunConfig.poolSize, hzero, UInt64.toNat_zero]
      at hconnections
    omega
  · intro hne
    have hsize : cfg.admissible = cfg.poolSize := if_neg hne
    refine ⟨hsize.le, hsize.le.trans (Nat.le_max_right _ _), fun s₀ actions s hinit hrun hstop => ?_⟩
    obtain ⟨hjoin, h⟩ := run_running (UInt64.pos_iff_ne_zero.2 hne) hinit hrun hstop
    exact ⟨fun t id k hactive hcontrol => h.acquires hneeds hjoin hactive hcontrol,
      (submitted_length_le h hjoin).trans (Nat.le_max_right _ _)⟩

theorem fits_iff_one_warehouse :
    1 ≤ oneWarehouse.warehouseCount ∧ oneWarehouse.needsConnections = true ∧ Fits oneWarehouse 0 :=
  ⟨by decide, by decide, (fits_iff oneWarehouse 0 (by decide) (by decide)).2 (by decide)⟩

theorem run_ledger {s₀ s : State cfg}
    {actions : List (TaskQueue.Action (Handle cfg.terminalCount) (Step cfg.terminalCount))}
    (hinit : (lts cfg).init s₀) (hrun : (lts cfg).Run s₀ actions s)
    (hstop : s.q.stopRequested = false) : Ledger cfg s := by
  refine (run_until_stop (I := fun s => Token cfg s ∧ Ledger cfg s) ⟨.start cfg, .start cfg⟩ ?_
    hinit hrun hstop).2.2
  rintro s action s' ⟨htoken, h⟩ hjoin hstop hstop' hstep
  have hmove := step_move hstep
  exact ⟨htoken.step hjoin hstop hstop' hmove, h.step htoken hmove⟩

/-- Without a limit, a terminal that calls `AcquireSession` never comes back from it. -/
theorem run_starved {s₀ : State cfg}
    {actions : List (TaskQueue.Action (Handle cfg.terminalCount) (Step cfg.terminalCount))}
    (hneeds : cfg.needsConnections = true) (hzero : cfg.maxInflight = 0)
    (hinit : (lts cfg).init s₀) (hrun : (lts cfg).Run s₀ actions s)
    (hstop : s.q.stopRequested = false) {t : Nat} {id : Fin cfg.terminalCount} {k : Nat}
    (hactive : s.client.active t = some id)
    (hcontrol : s.client.control id = .running (.attempt k)) :
    ¬∃ s', (lts cfg).step s (.own (.advance t)) s' := by
  have hsize := (run_ledger hinit hrun hstop).pool.length_eq
  rw [RunConfig.connections, if_pos hneeds, List.length_range, RunConfig.poolSize, hzero,
    UInt64.toNat_zero, Nat.min_zero] at hsize
  have hfree : s.client.pool.free = [] := List.length_eq_zero_iff.1 (by omega)
  rintro ⟨s', hstep⟩
  cases step_move hstep with
  | own i state hclient =>
    have hown : own cfg s.client (.advance t) = some state := hclient
    simp only [own, advance, hactive, hcontrol, hneeds, if_true, Terminals.withPool,
      Option.map_eq_some_iff] at hown
    obtain ⟨pool, hpool, -⟩ := hown
    simp only [ObConnectionPool.step, hfree] at hpool
    split at hpool <;> simp_all

/-- One warehouse, two threads and no limit. -/
def unlimited : RunConfig := { oneWarehouse with maxInflight := 0 }

theorem fits_unlimited :
    ¬∀ (cfg : RunConfig) (setting : Nat), 1 ≤ cfg.warehouseCount → cfg.needsConnections = true →
      Fits cfg setting := by
  intro hall
  have hconnections := (hall unlimited 0 (by decide) (by decide)).connections
  revert hconnections
  decide

end Tpcc.Terminal
