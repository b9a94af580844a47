import Mathlib.Data.List.Flatten
import Tpcc.Import.Coverage
import Tpcc.Import.ForeignKeys
import Tpcc.Lib.Ordered
import Tpcc.Store.Rows

/-! The rows that the main thread and the loaders insert: no call of `BulkInsert` violates a primary
key or a foreign key, in whatever order the threads make them, and in the end all rows are there. -/

namespace Tpcc.Import

open Lib Store Transaction Check Serial

section Bulks

/-- A call of `BulkInsert`. -/
inductive Bulk
  | items
  | warehouses
  | districts
  | stock (wh : Nat)
  | customers (wh d : Nat)
  | history (wh d : Nat)
  | oorders (wh d : Nat)
  | newOrders (wh d : Nat)
  | orderLines (wh d : Nat)
  deriving DecidableEq

/-- The calls of the main thread. -/
def sharedBulks : List Bulk := [.items, .warehouses, .districts]

/-- The calls in `LoadStock`, `LoadCustomers`, `LoadHistory` and `LoadOrders`. -/
def Load.bulks : Load → List Bulk
  | .stock wh => [.stock wh.toNat]
  | .customers wh d => [.customers wh.toNat d]
  | .history wh d => [.history wh.toNat d]
  | .orders wh d => [.oorders wh.toNat d, .newOrders wh.toNat d, .orderLines wh.toNat d]

variable (draws : ImportDraws) (warehouseCount : Nat)

def Bulk.rows : Bulk → List TableRow
  | .items => (loadItems draws).map .item
  | .warehouses => (loadWarehouses draws 1 warehouseCount).map .warehouse
  | .districts => (loadDistricts draws 1 warehouseCount).map .district
  | .stock wh => (loadStock draws wh).map .stock
  | .customers wh d => (loadCustomers draws wh d).map .customer
  | .history wh d => (loadHistory draws wh d).map .history
  | .oorders wh d => (loadOorders draws wh d).map .oorder
  | .newOrders wh d => (loadNewOrders wh d).map .newOrder
  | .orderLines wh d => (loadOrderLines draws wh d).map .orderLine

/-- The calls of all loaders. -/
def loaderBulks : List Bulk := (loadsFrom 0 warehouseCount).flatMap Load.bulks

def allBulks : List Bulk := sharedBulks ++ loaderBulks warehouseCount

end Bulks

section Tables

variable (draws : ImportDraws) (warehouseCount : Nat)

theorem warehouseLoads_flatMap {α : Type} (wh : Nat) (rows : Bulk → List α) :
    (warehouseLoads wh).flatMap (fun load => load.bulks.flatMap rows) =
      rows (.stock wh) ++ districts.flatMap fun d =>
        rows (.customers wh d) ++ (rows (.history wh d) ++ (rows (.oorders wh d) ++
          (rows (.newOrders wh d) ++ rows (.orderLines wh d)))) := by
  rw [warehouseLoads, List.flatMap_cons, List.flatMap_assoc]
  simp only [districtLoads, Load.bulks, List.flatMap_cons, List.flatMap_nil, List.append_nil,
    Int.toNat_natCast]

theorem loaderBulks_flatMap {α : Type} (rows : Bulk → List α) :
    (loaderBulks warehouseCount).flatMap rows = (List.range' 1 warehouseCount).flatMap fun wh =>
      rows (.stock wh) ++ districts.flatMap fun d =>
        rows (.customers wh d) ++ (rows (.history wh d) ++ (rows (.oorders wh d) ++
          (rows (.newOrders wh d) ++ rows (.orderLines wh d)))) := by
  rw [loaderBulks, loadsFrom, List.flatMap_assoc, List.flatMap_assoc]
  exact List.flatMap_congr fun wh _ => warehouseLoads_flatMap wh rows

/-- The rows of calls for the districts. -/
theorem flatMap_grid {α : Type} (rows : Nat → Nat → List α) :
    (grid warehouseCount).flatMap (fun p => rows p.1 p.2) =
      (List.range' 1 warehouseCount).flatMap fun wh => districts.flatMap fun d => rows wh d := by
  simp only [grid, List.flatMap_assoc, List.flatMap_map]

/-- The rows of an import by tables and by calls. -/
theorem rows_allBulks :
    (tableRows (importTables draws warehouseCount)).Perm
      ((allBulks warehouseCount).flatMap (Bulk.rows draws warehouseCount)) := by
  let rows := Bulk.rows draws warehouseCount
  have hdistricts : ((grid warehouseCount).flatMap (fun q => rows (.customers q.1 q.2)) ++
      ((grid warehouseCount).flatMap (fun q => rows (.history q.1 q.2)) ++
        ((grid warehouseCount).flatMap (fun q => rows (.oorders q.1 q.2)) ++
          ((grid warehouseCount).flatMap (fun q => rows (.newOrders q.1 q.2)) ++
            (grid warehouseCount).flatMap fun q => rows (.orderLines q.1 q.2))))).Perm
      ((grid warehouseCount).flatMap fun q => rows (.customers q.1 q.2) ++
        (rows (.history q.1 q.2) ++ (rows (.oorders q.1 q.2) ++
          (rows (.newOrders q.1 q.2) ++ rows (.orderLines q.1 q.2))))) :=
    ((((List.flatMap_append_perm _ _ _).append_left _ |>.trans
      (List.flatMap_append_perm _ _ _)).append_left _ |>.trans
        (List.flatMap_append_perm _ _ _)).append_left _).trans (List.flatMap_append_perm _ _ _)
  have hloaders : ((List.range' 1 warehouseCount).flatMap (fun wh => rows (.stock wh)) ++
      (grid warehouseCount).flatMap fun q => rows (.customers q.1 q.2) ++
        (rows (.history q.1 q.2) ++ (rows (.oorders q.1 q.2) ++
          (rows (.newOrders q.1 q.2) ++ rows (.orderLines q.1 q.2))))).Perm
      ((loaderBulks warehouseCount).flatMap rows) := by
    rw [loaderBulks_flatMap, flatMap_grid warehouseCount fun wh d => rows (.customers wh d) ++
      (rows (.history wh d) ++ (rows (.oorders wh d) ++
        (rows (.newOrders wh d) ++ rows (.orderLines wh d))))]
    exact List.flatMap_append_perm _ _ _
  have hshared : sharedBulks.flatMap rows = rows .items ++ (rows .warehouses ++ rows .districts) := by
    rw [sharedBulks, List.flatMap_cons, List.flatMap_cons, List.flatMap_singleton]
  rw [allBulks, List.flatMap_append, hshared, List.append_assoc, List.append_assoc]
  refine .trans ?_ ((((hdistricts.append_left _).trans hloaders).append_left _).append_left _
    |>.append_left _)
  simp only [tableRows, importTables, List.map_flatMap]
  exact .refl _

theorem constrained_allBulks :
    Constrained ((allBulks warehouseCount).flatMap (Bulk.rows draws warehouseCount)) :=
  (constrained_tableRows importTables_keyed
    (importTables_foreignKeys draws warehouseCount)).perm (rows_allBulks draws warehouseCount)

end Tables

section Order

variable {draws : ImportDraws} {warehouseCount : Nat}

/-- The call that inserts the row with a key. -/
def bulkOf : TableKey → Bulk
  | .warehouse _ => .warehouses
  | .district _ => .districts
  | .customer k => .customers k.1 k.2.1
  | .oorder k => .oorders k.1 k.2.1
  | .newOrder k => .newOrders k.1 k.2.1
  | .orderLine k => .orderLines k.1 k.2.1
  | .item _ => .items
  | .stock k => .stock k.1

/-- The calls that insert what the rows of a call refer to. -/
def Bulk.needs : Bulk → List Bulk
  | .items => []
  | .warehouses => []
  | .districts => [.warehouses]
  | .stock _ => [.warehouses, .items]
  | .customers _ _ => [.districts]
  | .history wh d => [.customers wh d, .districts]
  | .oorders wh d => [.customers wh d]
  | .newOrders wh d => [.oorders wh d]
  | .orderLines wh d => [.oorders wh d, .stock wh]

theorem bulkOf_of_mem {b : Bulk} {k : TableKey} (hk : k ∈ keys (b.rows draws warehouseCount)) :
    bulkOf k = b := by
  obtain ⟨row, hrow, hkey⟩ := List.mem_filterMap.1 hk
  cases b <;> obtain ⟨r, hr, rfl⟩ := List.mem_map.1 hrow <;> cases hkey
  case items | warehouses | districts => rfl
  case stock | customers | oorders | newOrders =>
    obtain ⟨i, -, rfl⟩ := List.mem_map.1 hr
    rfl
  case orderLines =>
    obtain ⟨i, -, hr⟩ := List.mem_flatMap.1 hr
    obtain ⟨n, -, rfl⟩ := List.mem_map.1 hr
    rfl

theorem bulkOf_parents {b : Bulk} {row : TableRow} {k : TableKey}
    (hrow : row ∈ b.rows draws warehouseCount) (hk : k ∈ row.parents) : bulkOf k ∈ b.needs := by
  cases b <;> obtain ⟨r, hr, rfl⟩ := List.mem_map.1 hrow
  case items | warehouses => cases hk
  case districts | customers =>
    obtain rfl := List.mem_singleton.1 hk
    exact List.mem_singleton_self _
  case stock | history =>
    obtain ⟨i, -, rfl⟩ := List.mem_map.1 hr
    rcases List.mem_pair.1 hk with rfl | rfl
    · exact List.mem_cons_self
    · exact List.mem_cons_of_mem _ List.mem_cons_self
  case oorders | newOrders =>
    obtain ⟨i, -, rfl⟩ := List.mem_map.1 hr
    obtain rfl := List.mem_singleton.1 hk
    exact List.mem_singleton_self _
  case orderLines =>
    obtain ⟨i, -, hr⟩ := List.mem_flatMap.1 hr
    obtain ⟨n, -, rfl⟩ := List.mem_map.1 hr
    rcases List.mem_pair.1 hk with rfl | rfl
    · exact List.mem_cons_self
    · exact List.mem_cons_of_mem _ List.mem_cons_self

theorem ordered_shared : Ordered Bulk.needs [] sharedBulks := by
  simp [sharedBulks, Ordered, Bulk.needs]

/-- A loader makes each of its calls after those that it needs. -/
theorem ordered_loadsFrom (before size : Nat) :
    Ordered Bulk.needs sharedBulks ((loadsFrom before size).flatMap Load.bulks) := by
  rw [loadsFrom, List.flatMap_assoc]
  refine Ordered.flatMap fun wh _ => ?_
  rw [warehouseLoads, List.flatMap_cons, List.flatMap_assoc]
  refine Ordered.append ?_ (Ordered.flatMap fun d _ => ?_)
  · simp [Load.bulks, sharedBulks, Ordered, Bulk.needs]
  · simp [districtLoads, Load.bulks, sharedBulks, Ordered, Bulk.needs]

end Order

section System

/-- The call of `LoadWarehouse` that a stage makes. -/
def Stage.call (wh : Int) : Stage → Option Load
  | .stock => some (.stock wh)
  | .customers d => some (.customers wh d)
  | .history d => some (.history wh d)
  | .orders d => some (.orders wh d)
  | _ => none

def Loader.call? (l : Loader) : Option Load :=
  match l.pc with
  | .load wh stage => stage.call wh
  | _ => none

/-- An import with the rows in the tables.  `shared` and `cursor tid` are the calls of `BulkInsert`
that are committed, of the main thread and of the loader's present call. -/
structure Filling where
  sync : State
  shared : Nat
  cursor : Nat → Nat
  rows : List TableRow

/-- The next call of `BulkInsert` of the main thread or of a loader. -/
def Filling.next (f : Filling) : Option Nat → Option Bulk
  | none => if f.sync.main = .shared then sharedBulks[f.shared]? else none
  | some tid =>
    (f.sync.loaders[tid]?.bind Loader.call?).bind fun load => load.bulks[f.cursor tid]?

/-- A call of `BulkInsert` that the server commits, or a step of `ImportSync`. -/
inductive Filling.Action
  | bulk (thread : Option Nat)
  | sync (action : Import.Action)

/-- A call returns when its calls of `BulkInsert` have all been made. -/
def Filling.returns (f : Filling) : Import.Action → Bool
  | .main true => f.sync.main ≠ .shared ∨ f.shared = sharedBulks.length
  | .loader tid true =>
    match f.sync.loaders[tid]?.bind Loader.call? with
    | some load => f.cursor tid = load.bulks.length
    | none => true
  | _ => true

/-- The calls of `BulkInsert` in the loader's next call are still to be made. -/
def Filling.cursorAfter (f : Filling) : Import.Action → Nat → Nat
  | .loader tid true =>
    if (f.sync.loaders[tid]?.bind Loader.call?).isSome then Function.update f.cursor tid 0
    else f.cursor
  | _ => f.cursor

variable (draws : ImportDraws) (config : TImportConfig)

def Filling.step (f : Filling) : Filling.Action → Option Filling
  | .bulk none => do
    let b ← f.next none
    let rows ← insertRows f.rows (b.rows draws config.warehouseCount)
    pure { f with shared := f.shared + 1, rows := rows }
  | .bulk (some tid) => do
    let b ← f.next (some tid)
    let rows ← insertRows f.rows (b.rows draws config.warehouseCount)
    pure { f with cursor := Function.update f.cursor tid (f.cursor tid + 1), rows := rows }
  | .sync action =>
    if f.returns action then
      (f.sync.step config action).map fun s =>
        { f with sync := s, cursor := f.cursorAfter action }
    else none

/-- The tables are empty after `init`. -/
def Filling.initial (stop : Bool) : Filling := ⟨.initial stop, 0, fun _ => 0, []⟩

def fillLts : Lts Filling Filling.Action :=
  .ofAction (fun f => ∃ stop, f = .initial stop) (Filling.step draws config)

end System

section Invariant

variable {config : TImportConfig} {f f' : Filling}

/-- The calls of `BulkInsert` of a loader. -/
def threadBulks (config : TImportConfig) (tid : Nat) : List Bulk :=
  (loadsFrom (config.before tid) (config.size tid)).flatMap Load.bulks

/-- The calls that have returned in a loader. -/
def Filling.done (f : Filling) (tid : Nat) : List Load :=
  (f.sync.loaders[tid]?.map Loader.done).getD []

/-- The number of committed calls of a loader. -/
def Filling.count (f : Filling) (tid : Nat) : Nat :=
  ((f.done tid).flatMap Load.bulks).length + f.cursor tid

/-- The committed calls, one thread after another. -/
def Filling.committed (config : TImportConfig) (f : Filling) : List Bulk :=
  sharedBulks.take f.shared ++
    (List.range config.threadCount).flatMap fun tid => (threadBulks config tid).take (f.count tid)

structure Filled (draws : ImportDraws) (config : TImportConfig) (f : Filling) : Prop where
  sync : Inv config f.sync
  shared : f.shared = sharedBulks.length ∨
    f.sync.loaders = [] ∧
      (f.sync.main = .start ∨ f.sync.main = .shared ∨ ∃ what, f.sync.main = .threw what)
  rows : f.rows.Perm ((f.committed config).flatMap (Bulk.rows draws config.warehouseCount))
  constrained : Constrained f.rows

/-- The ranges of all threads make all calls. -/
theorem threadBulks_all (h : config.Countable) :
    (List.range config.threadCount).flatMap (threadBulks config) =
      loaderBulks config.warehouseCount := by
  have htake : ∀ n, (List.range n).flatMap (threadBulks config) =
      (loadsFrom 0 (config.before n)).flatMap Load.bulks := by
    intro n
    induction n with
    | zero => simp [before_zero, loadsFrom]
    | succ n ih =>
      have hle : config.before n ≤ config.before (n + 1) := before_mono (Nat.le_add_right n 1)
      have hsplit : config.before (n + 1) = config.before n + config.size n := by
        rw [TImportConfig.size]
        omega
      have hloads := loadsFrom_append 0 (config.before n) (config.size n)
      rw [Nat.zero_add, ← hsplit] at hloads
      rw [List.range_succ, List.flatMap_append, ih, List.flatMap_singleton, threadBulks,
        ← List.flatMap_append, hloads]
  rw [htake, before_threadCount h, loaderBulks]

theorem committed_sublist (h : config.Countable) (f : Filling) :
    (f.committed config).Sublist (allBulks config.warehouseCount) := by
  rw [Filling.committed, allBulks, ← threadBulks_all h]
  exact (List.take_sublist _ _).append (List.Sublist.flatMap_right _ fun _ _ => List.take_sublist _ _)

/-- Loaders that have counted all warehouses have each counted theirs. -/
theorem loaders_counted {stop : Bool} {loaders : List Loader} {tid : Nat}
    (h : ∀ i l, loaders[i]? = some l →
      LoaderOk (config.before (tid + i)) (config.size (tid + i)) stop l)
    (hall : config.before (tid + loaders.length) ≤
      config.before tid + (loaders.map Loader.counted).sum) :
    ∀ i l, loaders[i]? = some l → l.counted = config.size (tid + i) := by
  induction loaders generalizing tid with
  | nil => simp
  | cons l loaders ih =>
    have hfirst : LoaderOk (config.before tid) (config.size tid) stop l := h 0 l rfl
    have hrest : ∀ i l', loaders[i]? = some l' →
        LoaderOk (config.before (tid + 1 + i)) (config.size (tid + 1 + i)) stop l' := by
      intro i l' hl'
      have hok := h (i + 1) l' hl'
      rwa [← Nat.add_assoc, Nat.add_right_comm] at hok
    have hlength : tid + (l :: loaders).length = tid + 1 + loaders.length := by
      rw [List.length_cons]
      omega
    obtain ⟨hbound, -⟩ := loaders_complete hrest
    have hcounted := hfirst.counted
    rw [hlength, List.map_cons, List.sum_cons] at hall
    have hsize : config.before (tid + 1) = config.before tid + config.size tid := by
      have hle : config.before tid ≤ config.before (tid + 1) := before_mono (Nat.le_add_right tid 1)
      rw [TImportConfig.size]
      omega
    intro i l' hl'
    cases i with
    | zero =>
      obtain rfl := Option.some.inj hl'
      rw [Nat.add_zero]
      omega
    | succ i =>
      rw [← Nat.add_assoc, Nat.add_right_comm]
      exact ih hrest (by omega) i l' hl'

/-- The next call of a loader is the next one in its range. -/
theorem Stage.done_call {wh : Int} {stage : Stage} {load : Load} (hvalid : stage.Valid)
    (hcall : stage.call wh = some load) : stage.done wh ++ [load] <+: warehouseLoads wh := by
  have hdistrict : ∀ d, 1 ≤ d → d ≤ districtHighId →
      districtsDone wh d ++ districtLoads wh d <+: warehouseLoads wh := by
    intro d hlow hhigh
    rw [← districtsDone_succ wh hlow, districtsDone, warehouseLoads, districts, Nat.add_sub_cancel]
    have hlength : d + (districtHighId - districtLowId + 1 - d) =
        districtHighId - districtLowId + 1 := by
      simp only [districtHighId, districtLowId] at hhigh ⊢
      omega
    have hsplit := @List.range'_append_1 districtLowId d (districtHighId - districtLowId + 1 - d)
    rw [hlength] at hsplit
    rw [← hsplit, List.flatMap_append, ← List.cons_append]
    exact List.prefix_append _ _
  cases stage with
  | stock =>
    obtain rfl := Option.some.inj hcall
    exact ⟨_, rfl⟩
  | customers d =>
    obtain rfl := Option.some.inj hcall
    refine List.IsPrefix.trans ?_ (hdistrict d hvalid.1 hvalid.2)
    exact (List.prefix_append_right_inj _).2 ⟨_, rfl⟩
  | history d =>
    obtain rfl := Option.some.inj hcall
    refine List.IsPrefix.trans ?_ (hdistrict d hvalid.1 hvalid.2)
    rw [Stage.done, List.append_assoc]
    exact (List.prefix_append_right_inj _).2 ⟨_, rfl⟩
  | orders d =>
    obtain rfl := Option.some.inj hcall
    refine List.IsPrefix.trans ?_ (hdistrict d hvalid.1 hvalid.2)
    rw [Stage.done, List.append_assoc]
    exact (List.prefix_append_right_inj _).2 ⟨_, rfl⟩
  | _ => cases hcall

theorem LoaderOk.done_call {before size : Nat} {stop : Bool} {l : Loader} {load : Load}
    (h : LoaderOk before size stop l) (hcall : l.call? = some load) :
    l.done ++ [load] <+: loadsFrom before size := by
  have hat := h.at_pc
  cases hpc : l.pc with
  | load wh stage =>
    simp only [Loader.At, hpc] at hat
    simp only [Loader.call?, hpc] at hcall
    obtain ⟨hwh, hlt, hvalid, hdone⟩ := hat
    have hsplit := loadsFrom_append before (l.counted + 1) (size - (l.counted + 1))
    rw [Nat.add_sub_cancel' hlt, loadsFrom_succ, ← hwh] at hsplit
    refine List.IsPrefix.trans ?_ ⟨_, hsplit⟩
    rw [hdone, List.append_assoc]
    exact (List.prefix_append_right_inj _).2 (Stage.done_call hvalid hcall)
  | _ => simp [Loader.call?, hpc] at hcall

/-- What a step of a loader adds to the calls that have returned. -/
theorem Loader.step_done {whStart whEnd : Int} {stop ok : Bool} {l : Loader} {r : LoaderStep}
    (hstep : l.step whStart whEnd stop ok = some r) :
    r.loader.done = l.done ++ if ok then l.call?.toList else [] := by
  cases hpc : l.pc with
  | load wh stage =>
    cases stage <;> simp only [Loader.step, hpc, Option.some_inj] at hstep <;> subst hstep <;>
      cases ok <;> simp [Loader.goto, Loader.call, Loader.call?, Stage.call, hpc]
  | ended => simp [Loader.step, hpc] at hstep
  | _ =>
    simp only [Loader.step, hpc, Option.some_inj] at hstep
    subst hstep
    cases ok <;> simp [Loader.goto, Loader.call?, hpc]

variable {draws : ImportDraws}

/-- The counts of committed calls decide what is committed. -/
theorem committed_congr (hshared : f'.shared = f.shared) (hcount : ∀ tid, f'.count tid = f.count tid) :
    f'.committed config = f.committed config := by
  simp only [Filling.committed, hshared, hcount]

/-- A step of the main thread returns no call of a loader. -/
theorem done_mainStep {ok : Bool} {s' : State} (hstep : f.sync.mainStep config ok = some s')
    (tid : Nat) : (s'.loaders[tid]?.map Loader.done).getD [] = f.done tid := by
  cases hpc : f.sync.main with
  | spawn n =>
    simp only [State.mainStep, hpc] at hstep
    split at hstep
    · obtain rfl := Option.some.inj hstep
      rw [Filling.done]
      rcases Nat.lt_trichotomy tid f.sync.loaders.length with hlt | heq | hgt
      · rw [List.getElem?_append_left hlt]
      · rw [heq, List.getElem?_concat_length, List.getElem?_eq_none le_rfl]
        rfl
      · have hpast : (f.sync.loaders ++ [(⟨.opening, [], 0⟩ : Loader)]).length ≤ tid := by
          rw [List.length_append]
          exact hgt
        rw [List.getElem?_eq_none hpast, List.getElem?_eq_none hgt.le]
    · obtain rfl := Option.some.inj hstep
      rfl
  | join n wasInterrupted =>
    simp only [State.mainStep, hpc] at hstep
    split at hstep
    · obtain rfl := Option.some.inj hstep
      rfl
    · split at hstep
      · obtain rfl := Option.some.inj hstep
        rfl
      · cases hstep
  | finished => simp [State.mainStep, hpc] at hstep
  | threw what => simp [State.mainStep, hpc] at hstep
  | _ =>
    simp only [State.mainStep, hpc, Option.some_inj] at hstep
    subst hstep
    rfl

/-- A step of `ImportSync` commits nothing. -/
theorem count_sync {action : Import.Action} {s' : State} (hreturns : f.returns action = true)
    (hstep : f.sync.step config action = some s') (tid : Nat) :
    Filling.count { f with sync := s', cursor := f.cursorAfter action } tid = f.count tid := by
  cases action with
  | main ok =>
    rw [Filling.count, Filling.count, ← done_mainStep hstep]
    rfl
  | interrupt =>
    obtain rfl := Option.some.inj hstep
    rfl
  | loader n ok =>
    simp only [State.step] at hstep
    split at hstep
    · cases hstep
    next l hl =>
      obtain ⟨r, hr, rfl⟩ := Option.map_eq_some_iff.1 hstep
      have hdone := Loader.step_done hr
      have hlength := (List.getElem?_eq_some_iff.1 hl).1
      by_cases htid : n = tid
      · subst htid
        simp only [Filling.count, Filling.done, List.getElem?_set_self hlength, hl, Option.map_some,
          Option.getD_some, hdone]
        cases ok with
        | false => simp [Filling.cursorAfter]
        | true =>
          simp only [Filling.returns, Filling.cursorAfter, hl, Option.bind_some] at hreturns ⊢
          cases hcall : l.call? with
          | none => simp
          | some load =>
            simp only [hcall, decide_eq_true_eq] at hreturns
            simp [hreturns]
      · have hcursor : f.cursorAfter (.loader n ok) tid = f.cursor tid := by
          cases ok with
          | false => rfl
          | true =>
            rw [Filling.cursorAfter]
            split
            · exact Function.update_of_ne (Ne.symm htid) _ _
            · rfl
        simp only [Filling.count, Filling.done, List.getElem?_set_ne htid, hcursor]

namespace Filled

theorem initial (stop : Bool) : Filled draws config (.initial stop) where
  sync := .initial stop
  shared := .inr ⟨rfl, .inl rfl⟩
  rows := by
    have hcommitted : (Filling.initial stop).committed config = [] := by
      simp [Filling.committed, Filling.initial, Filling.count, Filling.done, State.initial]
    rw [hcommitted]
    exact .refl _
  constrained := ⟨List.nodup_nil, fun _ hr => nomatch hr⟩

variable {b : Bulk}

/-- A call of `BulkInsert` succeeds when it is still to be made, after those that it needs. -/
theorem insert {committed' : List Bulk} (h : Filled draws config f)
    (hsub : committed'.Sublist (allBulks config.warehouseCount))
    (hperm : committed'.Perm (f.committed config ++ [b]))
    (hneeds : ∀ b' ∈ b.needs, b' ∈ f.committed config) :
    insertRows f.rows (b.rows draws config.warehouseCount) =
        some (f.rows ++ b.rows draws config.warehouseCount) ∧
      (f.rows ++ b.rows draws config.warehouseCount).Perm
        (committed'.flatMap (Bulk.rows draws config.warehouseCount)) := by
  have hall := constrained_allBulks draws config.warehouseCount
  have hrows : (f.rows ++ b.rows draws config.warehouseCount).Perm
      (committed'.flatMap (Bulk.rows draws config.warehouseCount)) := by
    refine .trans ?_ (hperm.flatMap_right _).symm
    rw [List.flatMap_append, List.flatMap_singleton]
    exact h.rows.append_right _
  refine ⟨insertRows_eq_some ?_ fun r hr k hk => ?_, hrows⟩
  · refine (hrows.filterMap TableRow.key).nodup_iff.2 (hall.keys.sublist ?_)
    exact (hsub.flatMap _).filterMap _
  · have hmem : b ∈ allBulks config.warehouseCount :=
      hsub.subset (hperm.mem_iff.2 (List.mem_append_right _ (List.mem_singleton_self b)))
    have hkey := hall.parents r (List.mem_flatMap.2 ⟨b, hmem, hr⟩) k hk
    obtain ⟨row, hrow, hrowKey⟩ := List.mem_filterMap.1 hkey
    obtain ⟨parent, -, hparent⟩ := List.mem_flatMap.1 hrow
    have hin : k ∈ keys (parent.rows draws config.warehouseCount) :=
      List.mem_filterMap.2 ⟨row, hparent, hrowKey⟩
    have hcommitted : parent ∈ f.committed config :=
      bulkOf_of_mem hin ▸ hneeds _ (bulkOf_parents hr hk)
    refine (h.rows.filterMap TableRow.key).mem_iff.2 ?_
    exact List.mem_filterMap.2 ⟨row, List.mem_flatMap.2 ⟨parent, hcommitted, hparent⟩, hrowKey⟩

/-- The next call of the main thread. -/
theorem next_main (h : Filled draws config f) (hconfig : config.Countable)
    (hb : f.next none = some b) :
    ∃ rows, insertRows f.rows (b.rows draws config.warehouseCount) = some rows ∧
      Filled draws config { f with shared := f.shared + 1, rows := rows } := by
  rw [Filling.next] at hb
  split at hb
  case isFalse => cases hb
  next hpc =>
    obtain ⟨hlt, -⟩ := List.getElem?_eq_some_iff.1 hb
    let after := Filling.committed config { f with shared := f.shared + 1 }
    have hafter : after.Perm (f.committed config ++ [b]) := by
      simp only [after, Filling.committed]
      rw [List.take_add_one, hb, List.append_assoc, List.append_assoc]
      exact List.Perm.append_left _ List.perm_append_comm
    have hneeds : ∀ b' ∈ b.needs, b' ∈ f.committed config := fun b' hb' =>
      List.mem_append_left _ (ordered_shared.needs_getElem? hb b' hb')
    obtain ⟨hinsert, hrows⟩ := h.insert (committed_sublist hconfig _) hafter hneeds
    refine ⟨_, hinsert, h.sync, .inr ⟨?_, .inr (.inl hpc)⟩, hrows,
      h.constrained.insertRows hinsert⟩
    have hmain := h.sync.main
    simpa only [State.MainAt, hpc] using hmain

/-- The next call of a loader. -/
theorem next_loader {tid : Nat} (h : Filled draws config f) (hconfig : config.Countable)
    (hb : f.next (some tid) = some b) :
    ∃ rows, insertRows f.rows (b.rows draws config.warehouseCount) = some rows ∧
      Filled draws config
        { f with cursor := Function.update f.cursor tid (f.cursor tid + 1), rows := rows } := by
  obtain ⟨load, hload, hnext⟩ := Option.bind_eq_some_iff.1 hb
  obtain ⟨l, hl, hcall⟩ := Option.bind_eq_some_iff.1 hload
  obtain ⟨hlength, -⟩ := List.getElem?_eq_some_iff.1 hl
  have hshared : f.shared = sharedBulks.length := h.shared.resolve_right fun hempty => by
    rw [hempty.1] at hlength
    cases hlength
  have hprefix := (h.sync.loaders tid l hl).done_call hcall
  have hget : (threadBulks config tid)[f.count tid]? = some b := by
    obtain ⟨rest, hrest⟩ := hprefix
    rw [threadBulks, ← hrest, List.flatMap_append, List.flatMap_append, List.flatMap_singleton,
      Filling.count, Filling.done, hl, Option.map_some, Option.getD_some, List.append_assoc,
      List.getElem?_append_right (Nat.le_add_right _ _), Nat.add_sub_cancel_left,
      List.getElem?_append_left (List.getElem?_eq_some_iff.1 hnext).1, hnext]
  let next : Filling := { f with cursor := Function.update f.cursor tid (f.cursor tid + 1) }
  have hself : next.count tid = f.count tid + 1 := by
    simp [next, Filling.count, Filling.done, Nat.add_assoc]
  have hother : ∀ n, n ≠ tid → next.count n = f.count n := fun n hn => by
    simp [next, Filling.count, Filling.done, Function.update_of_ne hn]
  have hafter : (next.committed config).Perm (f.committed config ++ [b]) := by
    rw [Filling.committed, Filling.committed, List.append_assoc]
    refine List.Perm.append_left _ (flatMap_push_perm tid ?_ List.nodup_range ?_ ?_)
    · exact List.mem_range.2 (hlength.trans_le h.sync.bound)
    · rw [hself, List.take_add_one, hget]
      rfl
    · intro n hn
      rw [hother n hn]
  have hneeds : ∀ b' ∈ b.needs, b' ∈ f.committed config := by
    intro b' hb'
    have hplaced := (ordered_loadsFrom _ _).needs_getElem? hget b' hb'
    rw [Filling.committed, hshared, List.take_length]
    refine List.mem_append.2 ((List.mem_append.1 hplaced).imp_right fun hin => ?_)
    exact List.mem_flatMap.2 ⟨tid, List.mem_range.2 (hlength.trans_le h.sync.bound), hin⟩
  obtain ⟨hinsert, hrows⟩ := h.insert (committed_sublist hconfig _) hafter hneeds
  exact ⟨_, hinsert, h.sync, .inl hshared, hrows, h.constrained.insertRows hinsert⟩

/-- What was said of the main thread's tables before it spawns the loaders. -/
theorem shared_sync {action : Import.Action} {s' : State} (h : Filled draws config f)
    (hreturns : f.returns action = true) (hstep : f.sync.step config action = some s') :
    f.shared = sharedBulks.length ∨ s'.loaders = [] ∧
      (s'.main = .start ∨ s'.main = .shared ∨ ∃ what, s'.main = .threw what) := by
  rcases h.shared with hshared | ⟨hempty, hmain⟩
  · exact .inl hshared
  cases action with
  | interrupt =>
    obtain rfl := Option.some.inj hstep
    exact .inr ⟨hempty, hmain⟩
  | loader tid ok => simp [State.step, hempty] at hstep
  | main ok =>
    rcases hmain with hpc | hpc | ⟨what, hpc⟩
    · simp only [State.step, State.mainStep, hpc, Option.some_inj] at hstep
      subst hstep
      refine .inr ⟨hempty, .inr ?_⟩
      by_cases hzero : config.warehouseCount = 0
      · exact .inr ⟨_, if_pos hzero⟩
      · exact .inl (if_neg hzero)
    · simp only [State.step, State.mainStep, hpc, Option.some_inj] at hstep
      subst hstep
      cases ok with
      | true =>
        simp only [Filling.returns, hpc, ne_eq, not_true_eq_false, false_or,
          decide_eq_true_eq] at hreturns
        exact .inl hreturns
      | false => exact .inr ⟨hempty, .inr (.inr ⟨_, rfl⟩)⟩
    · simp [State.step, State.mainStep, hpc] at hstep

theorem step {action : Filling.Action} (h : Filled draws config f) (hconfig : config.Countable)
    (hstep : f.step draws config action = some f') : Filled draws config f' := by
  cases action with
  | bulk thread =>
    cases thread with
    | none =>
      obtain ⟨b, hb, hrest⟩ := Option.bind_eq_some_iff.1 hstep
      obtain ⟨rows, hrows, heq⟩ := Option.bind_eq_some_iff.1 hrest
      obtain ⟨rows', hrows', hfilled⟩ := h.next_main hconfig hb
      obtain rfl : rows' = rows := Option.some.inj (hrows'.symm.trans hrows)
      obtain rfl := Option.some.inj heq
      exact hfilled
    | some tid =>
      obtain ⟨b, hb, hrest⟩ := Option.bind_eq_some_iff.1 hstep
      obtain ⟨rows, hrows, heq⟩ := Option.bind_eq_some_iff.1 hrest
      obtain ⟨rows', hrows', hfilled⟩ := h.next_loader hconfig hb
      obtain rfl : rows' = rows := Option.some.inj (hrows'.symm.trans hrows)
      obtain rfl := Option.some.inj heq
      exact hfilled
  | sync action =>
    simp only [Filling.step] at hstep
    split at hstep
    case isFalse => cases hstep
    next hreturns =>
      obtain ⟨s', hs', rfl⟩ := Option.map_eq_some_iff.1 hstep
      refine ⟨h.sync.step hconfig hs', h.shared_sync hreturns hs', ?_, h.constrained⟩
      have hsame := @committed_congr config f
        { f with sync := s', cursor := f.cursorAfter action } rfl (count_sync hreturns hs')
      rw [hsame]
      exact h.rows

/-- When the loaders are joined and none was interrupted, every call is committed. -/
theorem complete (h : Filled draws config f) (hconfig : config.Countable)
    (hpast : f.sync.PastLoading) : f.committed config = allBulks config.warehouseCount := by
  have hmain := h.sync.main
  obtain ⟨hlength, hall⟩ : f.sync.loaders.length = config.threadCount ∧
      config.warehouseCount ≤ f.sync.warehousesLoaded := by
    rcases hpast with hpc | hpc | hpc <;> simpa only [State.MainAt, hpc] using hmain
  have hshared : f.shared = sharedBulks.length := h.shared.resolve_right fun hearly => by
    rcases hpast with hpc | hpc | hpc <;> simp [hpc] at hearly
  have hcounted := @loaders_counted config f.sync.stop f.sync.loaders 0
    (fun i l hl => by
      rw [Nat.zero_add]
      exact h.sync.loaders i l hl)
    (by
      rw [Nat.zero_add, hlength, before_threadCount hconfig, before_zero, Nat.zero_add,
        ← h.sync.counted]
      exact hall)
  rw [Filling.committed, hshared, List.take_length, allBulks, ← threadBulks_all hconfig]
  refine congrArg _ (List.flatMap_congr fun tid htid => List.take_of_length_le ?_)
  have hlt : tid < f.sync.loaders.length := hlength ▸ List.mem_range.1 htid
  have hl := List.getElem?_eq_getElem hlt
  have hmine := hcounted tid _ hl
  rw [Nat.zero_add] at hmine
  rw [Filling.count, Filling.done, hl, Option.map_some, Option.getD_some,
    (h.sync.loaders tid _ hl).full hmine]
  exact Nat.le_add_right _ _

end Filled

/-- What holds of the rows in the tables. -/
structure Intact (draws : ImportDraws) (config : TImportConfig) (f : Filling) : Prop where
  constrained : Constrained f.rows
  /-- The next `BulkInsert` of every thread meets no duplicate key and no missing row. -/
  accepted : ∀ thread b, f.next thread = some b →
    (insertRows f.rows (b.rows draws config.warehouseCount)).isSome
  /-- When the import goes on to `AnalyzeTables`, all rows are there, each once. -/
  loaded : f.sync.PastLoading →
    f.rows.Perm (tableRows (importTables draws config.warehouseCount))

/-- For every number of warehouses and of threads, every interleaving of their calls, and every
failure and stop request in between. -/
theorem run_intact {start : Filling} {actions : List Filling.Action} (hconfig : config.Countable)
    (hinit : (fillLts draws config).init start)
    (hrun : (fillLts draws config).Run start actions f) : Intact draws config f := by
  have h : Filled draws config f := by
    obtain ⟨stop, rfl⟩ := hinit
    exact hrun.preserves (I := Filled draws config) (fun _ _ _ h hstep => h.step hconfig hstep)
      (.initial stop)
  refine ⟨h.constrained, fun thread b hb => ?_, fun hpast => ?_⟩
  · cases thread with
    | none =>
      obtain ⟨rows, hrows, -⟩ := h.next_main hconfig hb
      exact Option.isSome_of_eq_some hrows
    | some tid =>
      obtain ⟨rows, hrows, -⟩ := h.next_loader hconfig hb
      exact Option.isSome_of_eq_some hrows
  · have hrows := h.rows
    rw [h.complete hconfig hpast] at hrows
    exact hrows.trans (rows_allBulks draws config.warehouseCount).symm

end Invariant

section Lift

variable {draws : ImportDraws} {config : TImportConfig} {f : Filling}

/-- The main thread commits the rest of its calls. -/
theorem exists_main (hconfig : config.Countable) (h : Filled draws config f)
    (hpc : f.sync.main = .shared) {n : Nat} (hn : f.shared + n = sharedBulks.length) :
    ∃ labels f', (fillLts draws config).Run f labels f' ∧ Filled draws config f' ∧
      f'.sync = f.sync ∧ f'.cursor = f.cursor ∧ f'.shared = sharedBulks.length := by
  induction n generalizing f with
  | zero => exact ⟨[], f, .nil f, h, rfl, rfl, hn⟩
  | succ n ih =>
    have hlt : f.shared < sharedBulks.length := by omega
    have hb : f.next none = some sharedBulks[f.shared] := by
      rw [Filling.next, if_pos hpc, List.getElem?_eq_getElem hlt]
    obtain ⟨rows, hrows, hfilled⟩ := h.next_main hconfig hb
    obtain ⟨labels, f', hrun, hf'⟩ := ih hfilled hpc (by rw [Nat.add_right_comm, ← hn]; rfl)
    refine ⟨.bulk none :: labels, f', hrun.cons ?_, hf'⟩
    simp [fillLts, Lts.ofAction, Filling.step, hb, hrows]

/-- A loader commits the rest of the calls in its present call. -/
theorem exists_loader {tid : Nat} {load : Load} (hconfig : config.Countable)
    (h : Filled draws config f) (hload : f.sync.loaders[tid]?.bind Loader.call? = some load)
    {n : Nat} (hn : f.cursor tid + n = load.bulks.length) :
    ∃ labels f', (fillLts draws config).Run f labels f' ∧ Filled draws config f' ∧
      f'.sync = f.sync ∧ (∀ i, i ≠ tid → f'.cursor i = f.cursor i) ∧
      f'.cursor tid = load.bulks.length ∧ f'.shared = f.shared := by
  induction n generalizing f with
  | zero => exact ⟨[], f, .nil f, h, rfl, fun _ _ => rfl, hn, rfl⟩
  | succ n ih =>
    have hlt : f.cursor tid < load.bulks.length := by omega
    have hb : f.next (some tid) = some load.bulks[f.cursor tid] := by
      rw [Filling.next, hload, Option.bind_some, List.getElem?_eq_getElem hlt]
    obtain ⟨rows, hrows, hfilled⟩ := h.next_loader hconfig hb
    obtain ⟨labels, f', hrun, hf', hsync, hother, hrest⟩ := ih hfilled hload
      (by simp only [Function.update_self]; omega)
    refine ⟨.bulk (some tid) :: labels, f', hrun.cons ?_, hf', hsync, fun i hi => ?_, hrest⟩
    · simp [fillLts, Lts.ofAction, Filling.step, hb, hrows]
    · rw [hother i hi]
      exact Function.update_of_ne hi _ _

/-- An import whose calls of `BulkInsert` are made just before the call that they are in returns. -/
structure Level (draws : ImportDraws) (config : TImportConfig) (s : State) (f : Filling) : Prop where
  filled : Filled draws config f
  sync : f.sync = s
  cursor : ∀ tid, f.cursor tid = 0
  shared : s.main = .start ∨ s.main = .shared → f.shared = 0

namespace Level

variable {s s' : State}

/-- A step of `ImportSync` whose calls of `BulkInsert` have been made. -/
theorem sync_step (action : Import.Action) (hconfig : config.Countable)
    (h : Filled draws config f)
    (hreturns : f.returns action = true) (hstep : f.sync.step config action = some s')
    (hcursor : ∀ tid, f.cursorAfter action tid = 0)
    (hshared : s'.main = .start ∨ s'.main = .shared → f.shared = 0) :
    ∃ labels f', (fillLts draws config).Run f labels f' ∧ Level draws config s' f' := by
  have hsync : f.step draws config (.sync action) =
      some { f with sync := s', cursor := f.cursorAfter action } := by
    rw [Filling.step, if_pos hreturns, hstep, Option.map_some]
  exact ⟨_, _, (Lts.Run.nil f).snoc hsync, h.step hconfig hsync, rfl, hcursor, hshared⟩

/-- Only a step that leads to `.shared` comes from `.start`. -/
theorem early_main {ok : Bool} (hstep : s.step config (.main ok) = some s')
    (hearly : s'.main = .start ∨ s'.main = .shared) : s.main = .start := by
  cases hpc : s.main with
  | start => rfl
  | spawn tid =>
    simp only [State.step, State.mainStep, hpc] at hstep
    split at hstep <;> obtain rfl := Option.some.inj hstep <;> simp at hearly
  | join tid wasInterrupted =>
    simp only [State.step, State.mainStep, hpc] at hstep
    split at hstep
    · obtain rfl := Option.some.inj hstep
      simp at hearly
    · split at hstep
      · obtain rfl := Option.some.inj hstep
        simp at hearly
      · cases hstep
  | finished => simp [State.step, State.mainStep, hpc] at hstep
  | threw what => simp [State.step, State.mainStep, hpc] at hstep
  | sleep | sample =>
    simp only [State.step, State.mainStep, hpc, Option.some_inj] at hstep
    subst hstep
    simp at hearly
  | _ =>
    simp only [State.step, State.mainStep, hpc, Option.some_inj] at hstep
    subst hstep
    dsimp only at hearly
    split at hearly <;> simp at hearly

theorem step {action : Import.Action} (hconfig : config.Countable) (h : Level draws config s f)
    (hstep : s.step config action = some s') :
    ∃ labels f', (fillLts draws config).Run f labels f' ∧ Level draws config s' f' := by
  obtain ⟨hfilled, rfl, hcursor, hshared⟩ := h
  cases action with
  | interrupt =>
    refine sync_step .interrupt hconfig hfilled rfl hstep hcursor ?_
    obtain rfl := Option.some.inj hstep
    exact hshared
  | main ok =>
    have hearly := early_main hstep
    by_cases hcalls : ok = true ∧ f.sync.main = .shared
    · obtain ⟨rfl, hpc⟩ := hcalls
      obtain ⟨labels, f', hrun, hfilled', hsync, hcursor', hshared'⟩ :=
        exists_main hconfig hfilled hpc
          (show f.shared + sharedBulks.length = _ by simp [hshared (.inr hpc)])
      have hreturns : f'.returns (.main true) = true := by simp [Filling.returns, hshared']
      obtain ⟨labels', f'', hrun', hlevel⟩ := sync_step _ hconfig hfilled' hreturns (hsync ▸ hstep)
        (fun tid => by rw [← hcursor tid, ← hcursor']; rfl)
        fun hmain => by
          rw [hearly hmain] at hpc
          cases hpc
      exact ⟨_, f'', hrun.append hrun', hlevel⟩
    · refine sync_step (.main ok) hconfig hfilled ?_ hstep hcursor fun hmain =>
        hshared (.inl (hearly hmain))
      cases ok with
      | false => rfl
      | true => simpa [Filling.returns] using Or.inl fun hpc => hcalls ⟨rfl, hpc⟩
  | loader tid ok =>
    have hmain : s'.main = f.sync.main := by
      simp only [State.step] at hstep
      split at hstep
      · cases hstep
      · obtain ⟨r, -, rfl⟩ := Option.map_eq_some_iff.1 hstep
        rfl
    cases ok with
    | false =>
      exact sync_step (.loader tid false) hconfig hfilled rfl hstep hcursor
        (hmain ▸ hshared)
    | true =>
      cases hload : f.sync.loaders[tid]?.bind Loader.call? with
      | none =>
        refine sync_step (.loader tid true) hconfig hfilled ?_ hstep ?_ (hmain ▸ hshared)
        · simp [Filling.returns, hload]
        · simpa [Filling.cursorAfter, hload] using hcursor
      | some load =>
        obtain ⟨labels, f', hrun, hfilled', hsync, hother, hself, hshared'⟩ :=
          exists_loader hconfig hfilled hload
            (show f.cursor tid + load.bulks.length = _ by simp [hcursor tid])
        have hload' := hload
        rw [← hsync] at hload'
        have hreturns : f'.returns (.loader tid true) = true := by
          simp [Filling.returns, hload', hself]
        obtain ⟨labels', f'', hrun', hlevel⟩ := sync_step _ hconfig hfilled' hreturns (hsync ▸ hstep)
          (fun i => by
            rw [Filling.cursorAfter, hload', Option.isSome_some, if_pos rfl]
            by_cases hi : i = tid
            · rw [hi, Function.update_self]
            · rw [Function.update_of_ne hi, hother i hi, hcursor])
          (hshared' ▸ hmain ▸ hshared)
        exact ⟨_, f'', hrun.append hrun', hlevel⟩

end Level

/-- The constraints stop no import: every run of `ImportSync` is one in which the rows are
inserted. -/
theorem exists_filling (draws : ImportDraws) {start s : State} {actions : List Import.Action}
    (hconfig : config.Countable)
    (hinit : (lts config).init start) (hrun : (lts config).Run start actions s) :
    ∃ labels f, (fillLts draws config).Run (.initial start.stop) labels f ∧ f.sync = s := by
  obtain ⟨stop, rfl⟩ := hinit
  have hlevel : ∃ labels f, (fillLts draws config).Run (.initial stop) labels f ∧
      Level draws config s f := by
    refine hrun.preserves (I := fun s => ∃ labels f,
      (fillLts draws config).Run (.initial stop) labels f ∧ Level draws config s f) ?_ ?_
    · rintro s action s' ⟨labels, f, hrun, h⟩ hstep
      obtain ⟨labels', f', hrun', h'⟩ := h.step hconfig hstep
      exact ⟨_, f', hrun.append hrun', h'⟩
    · exact ⟨[], _, .nil _, .initial stop, rfl, fun _ => rfl, fun _ => rfl⟩
  obtain ⟨labels, f, hrun, h⟩ := hlevel
  exact ⟨labels, f, hrun, h.sync⟩

/-- An import with two threads comes to `AnalyzeTables` with all rows. -/
theorem run_intact_three_warehouses :
    ∃ actions f, (fillLts sampleImport ⟨3, 2, 8⟩).Run (.initial false) actions f ∧
      f.sync.PastLoading ∧ Intact sampleImport ⟨3, 2, 8⟩ f := by
  let s := (threeWarehouses.foldlM (State.step ⟨3, 2, 8⟩) (.initial false)).get (by decide +kernel)
  have hrun : (lts ⟨3, 2, 8⟩).Run (.initial false) threeWarehouses s :=
    Lts.run_of_foldlM (Option.some_get _).symm
  have hconfig : TImportConfig.Countable ⟨3, 2, 8⟩ := ⟨by decide, by decide⟩
  obtain ⟨actions, f, hfill, hsync⟩ := exists_filling sampleImport hconfig ⟨false, rfl⟩ hrun
  refine ⟨actions, f, hfill, ?_, run_intact hconfig ⟨false, rfl⟩ hfill⟩
  rw [hsync]
  exact .inl (by decide +kernel)

end Lift

end Tpcc.Import
