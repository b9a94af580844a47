import Mathlib.Data.List.Range
import Tpcc.Import.Model

/-! The ranges of the loader threads cover the warehouses, and the import goes on to `AnalyzeTables`
only when every warehouse has been loaded once. -/

namespace Tpcc.Import

open Lib Transaction

section Ranges

variable {config : TImportConfig}

/-- The number of warehouses of the threads before `tid`. -/
def TImportConfig.before (config : TImportConfig) (tid : Nat) : Nat :=
  tid * config.warehouseCount / config.threadCount

/-- A number of warehouses that an `int` can count up to and past. -/
def TImportConfig.Countable (config : TImportConfig) : Prop :=
  1 ≤ config.warehouseCount ∧ config.warehouseCount ≤ 2 ^ 31 - 2

theorem threadCount_bounds (h : config.Countable) :
    1 ≤ config.threadCount ∧ config.threadCount ≤ config.warehouseCount := by
  have hcount := h.1
  simp only [TImportConfig.threadCount]
  omega

theorem before_zero : config.before 0 = 0 := by simp [TImportConfig.before]

theorem before_threadCount (h : config.Countable) :
    config.before config.threadCount = config.warehouseCount :=
  Nat.mul_div_cancel_left _ (threadCount_bounds h).1

/-- A thread has at least one warehouse. -/
theorem before_lt_succ (h : config.Countable) (tid : Nat) :
    config.before tid < config.before (tid + 1) := by
  obtain ⟨hpos, hle⟩ := threadCount_bounds h
  have hadd : config.before tid + 1 =
      (tid * config.warehouseCount + config.threadCount) / config.threadCount :=
    (Nat.add_div_right _ hpos).symm
  have hmono : (tid * config.warehouseCount + config.threadCount) / config.threadCount ≤
      config.before (tid + 1) := by
    refine Nat.div_le_div_right ?_
    rw [Nat.succ_mul]
    omega
  omega

theorem before_mono {m n : Nat} (hle : m ≤ n) :
    config.before m ≤ config.before n :=
  Nat.div_le_div_right (Nat.mul_le_mul_right _ hle)

theorem castInt_of_lt {n : Nat} (h : n < 2 ^ 31) : TImportConfig.castInt n = n := by
  have hmod : n % 2 ^ 32 = n := Nat.mod_eq_of_lt (by omega)
  rw [TImportConfig.castInt, hmod, if_pos h]
  norm_cast

theorem sizeT_mul {config : TImportConfig} (h : config.Countable) {n : Nat}
    (hn : n ≤ config.threadCount) :
    TImportConfig.sizeT (n * config.warehouseCount) = n * config.warehouseCount := by
  obtain ⟨-, hle⟩ := threadCount_bounds h
  refine Nat.mod_eq_of_lt ?_
  have hbound := h.2
  calc n * config.warehouseCount ≤ (2 ^ 31 - 2) * (2 ^ 31 - 2) :=
        Nat.mul_le_mul (by omega) hbound
    _ < 2 ^ 64 := by decide

/-- The conversions and products of the range of a thread lose nothing. -/
theorem wh_eq (h : config.Countable) {tid : Nat} (htid : tid < config.threadCount) :
    config.whStart tid = config.before tid + 1 ∧ config.whEnd tid = config.before (tid + 1) := by
  have hbound := h.2
  have hlast : config.before (tid + 1) ≤ config.warehouseCount := by
    rw [← before_threadCount h]
    exact before_mono htid
  have hlt := before_lt_succ h tid
  have hsmall : ∀ n, n < 2 ^ 31 → TImportConfig.sizeT n = n := by
    intro n hn
    exact Nat.mod_eq_of_lt (by omega)
  constructor
  · have hstart : tid * config.warehouseCount / config.threadCount + 1 < 2 ^ 31 := by
      change config.before tid + 1 < 2 ^ 31
      omega
    rw [TImportConfig.whStart, sizeT_mul h (Nat.le_of_lt htid), hsmall _ hstart,
      castInt_of_lt hstart]
    rfl
  · obtain ⟨-, hle⟩ := threadCount_bounds h
    rw [TImportConfig.whEnd, hsmall (tid + 1) (by omega), sizeT_mul h htid]
    exact castInt_of_lt (show config.before (tid + 1) < 2 ^ 31 by omega)

/-- The warehouses of a loop from `low` to `high`. -/
def intRange (low high : Int) : List Int :=
  (List.range (high + 1 - low).toNat).map fun (i : Nat) => low + i

theorem intRange_natCast (low size : Nat) :
    intRange (low + 1) ((low + size : Nat) : Int) =
      (List.range' (low + 1) size).map fun (w : Nat) => (w : Int) := by
  have hsize : (((low + size : Nat) : Int) + 1 - (low + 1)).toNat = size := by omega
  rw [intRange, hsize, List.range'_eq_map_range, List.map_map]
  refine List.map_congr_left fun i _ => ?_
  simp only [Function.comp_apply]
  omega

/-- The ranges of the first threads, one after another. -/
theorem ranges_take (h : config.Countable) {n : Nat} (hn : n ≤ config.threadCount) :
    (List.range n).flatMap (fun tid => intRange (config.whStart tid) (config.whEnd tid)) =
      (List.range' 1 (config.before n)).map fun (w : Nat) => (w : Int) := by
  induction n with
  | zero => simp [before_zero]
  | succ n ih =>
    obtain ⟨hstart, hend⟩ := wh_eq h hn
    have hle : config.before n ≤ config.before (n + 1) := before_mono (Nat.le_add_right n 1)
    have hsplit : config.before (n + 1) =
        config.before n + (config.before (n + 1) - config.before n) := by omega
    have hlast := intRange_natCast (config.before n)
      (config.before (n + 1) - config.before n)
    rw [← hsplit] at hlast
    rw [List.range_succ, List.flatMap_append, ih (Nat.le_of_succ_le hn), List.flatMap_singleton,
      hstart, hend, hlast, ← List.map_append, Nat.add_comm (config.before n) 1,
      List.range'_append_1, ← hsplit]

end Ranges

section Loaders

/-- The calls of `LoadWarehouse`. -/
def districtLoads (wh : Int) (d : Nat) : List Load :=
  [.customers wh d, .history wh d, .orders wh d]

def warehouseLoads (wh : Int) : List Load := .stock wh :: districts.flatMap (districtLoads wh)

/-- The calls for `size` warehouses after the first `before` ones. -/
def loadsFrom (before size : Nat) : List Load :=
  (List.range' (before + 1) size).flatMap fun (w : Nat) => warehouseLoads w

theorem loadsFrom_succ (before size : Nat) :
    loadsFrom before (size + 1) =
      loadsFrom before size ++ warehouseLoads ((before + size + 1 : Nat) : Int) := by
  rw [loadsFrom, List.range'_concat, List.flatMap_append, List.flatMap_singleton]
  simp only [loadsFrom, Nat.one_mul, Nat.add_right_comm]

theorem loadsFrom_append (before m n : Nat) :
    loadsFrom before m ++ loadsFrom (before + m) n = loadsFrom before (m + n) := by
  rw [loadsFrom, loadsFrom, ← List.flatMap_append, Nat.add_right_comm, List.range'_append_1]
  rfl

/-- The calls of the districts before `d`. -/
def districtsDone (wh : Int) (d : Nat) : List Load :=
  .stock wh :: (List.range' districtLowId (d - 1)).flatMap (districtLoads wh)

/-- The calls of `LoadWarehouse` that have returned at a stage. -/
def Stage.done (wh : Int) : Stage → List Load
  | .enter => []
  | .stock => []
  | .district d => districtsDone wh d
  | .customers d => districtsDone wh d
  | .history d => districtsDone wh d ++ [.customers wh d]
  | .orders d => districtsDone wh d ++ [.customers wh d, .history wh d]
  | .count => warehouseLoads wh

def Stage.Valid : Stage → Prop
  | .district d => 1 ≤ d ∧ d ≤ districtHighId + 1
  | .customers d => 1 ≤ d ∧ d ≤ districtHighId
  | .history d => 1 ≤ d ∧ d ≤ districtHighId
  | .orders d => 1 ≤ d ∧ d ≤ districtHighId
  | _ => True

theorem districtsDone_succ (wh : Int) {d : Nat} (hd : 1 ≤ d) :
    districtsDone wh (d + 1) = districtsDone wh d ++ districtLoads wh d := by
  obtain ⟨n, rfl⟩ : ∃ n, d = n + 1 := ⟨d - 1, by omega⟩
  simp only [districtsDone, Nat.add_sub_cancel, List.range'_concat, List.flatMap_append,
    List.flatMap_singleton, List.cons_append, districtLowId, Nat.one_mul, Nat.add_comm 1 n]

/-- Where a loader of `size` warehouses after the first `before` ones stands. -/
def Loader.At (before size : Nat) (stop : Bool) (l : Loader) : Prop :=
  match l.pc with
  | .opening => l.counted = 0 ∧ l.done = []
  | .loop wh =>
    stop = true ∨ (wh = (before + l.counted + 1 : Nat) ∧ l.done = loadsFrom before l.counted)
  | .load wh stage =>
    wh = (before + l.counted + 1 : Nat) ∧ l.counted < size ∧ stage.Valid ∧
      l.done = loadsFrom before l.counted ++ stage.done wh
  | .log wh =>
    stop = true ∨ (wh = (before + l.counted : Nat) ∧ l.done = loadsFrom before l.counted)
  | .caught => True
  | .ended => stop = true ∨ l.counted = size

structure LoaderOk (before size : Nat) (stop : Bool) (l : Loader) : Prop where
  counted : l.counted ≤ size
  full : l.counted = size → l.done = loadsFrom before size
  at_pc : l.At before size stop

namespace LoaderOk

variable {before size : Nat} {stop ok : Bool} {l : Loader} {r : LoaderStep}

/-- A stop that is requested elsewhere. -/
theorem or_stop (h : LoaderOk before size stop l) (other : Bool) :
    LoaderOk before size (stop || other) l where
  counted := h.counted
  full := h.full
  at_pc := by
    have hat := h.at_pc
    have hstop : stop = true → (stop || other) = true := fun hs => by rw [hs, Bool.true_or]
    unfold Loader.At at hat ⊢
    split at hat
    · exact hat
    · exact hat.imp_left hstop
    · exact hat
    · exact hat.imp_left hstop
    · trivial
    · exact hat.imp_left hstop

/-- What a step leads to. -/
def After (before size : Nat) (stop : Bool) (l : Loader) (r : LoaderStep) : Prop :=
  LoaderOk before size (stop || r.stops) r.loader ∧
    r.loader.counted = l.counted + if r.counts then 1 else 0

/-- A step without effect, to a place where the loader stands too. -/
theorem goto {pc : LoaderPc} (h : LoaderOk before size stop l)
    (hat : ({ l with pc := pc } : Loader).At before size stop) :
    After before size stop l (l.goto pc) := by
  refine ⟨?_, rfl⟩
  rw [Loader.goto, Bool.or_false]
  exact ⟨h.counted, h.full, hat⟩

/-- A call of `LoadWarehouse`. -/
theorem call {load : Load} {wh : Int} {stage stage' : Stage}
    (h : LoaderOk before size stop l) (hpc : l.pc = .load wh stage)
    (hvalid : stage.Valid → stage'.Valid)
    (hdone : stage.Valid → stage.done wh ++ [load] = stage'.done wh) :
    After before size stop l (l.call ok load (.load wh stage')) := by
  have hat := h.at_pc
  simp only [Loader.At, hpc] at hat
  obtain ⟨hwh, hlt, hstage, hdone'⟩ := hat
  cases ok with
  | true =>
    refine ⟨?_, rfl⟩
    rw [Loader.call, if_pos rfl, Bool.or_false]
    refine ⟨h.counted, fun hfull => absurd hfull (Nat.ne_of_lt hlt), hwh, hlt, hvalid hstage, ?_⟩
    change l.done ++ [load] = _
    rw [hdone', List.append_assoc, hdone hstage]
  | false => exact h.goto trivial

/-- The loop's condition and the test of the stop. -/
theorem loop {wh : Int} (h : LoaderOk before size stop l) (hpc : l.pc = .loop wh) :
    After before size stop l (l.goto
      (if wh ≤ ((before + size : Nat) : Int) ∧ stop = false then .load wh .enter else .ended)) := by
  have hat := h.at_pc
  simp only [Loader.At, hpc] at hat
  have hcounted := h.counted
  refine h.goto ?_
  cases hstop : stop with
  | true =>
    rw [if_neg (by simp)]
    exact .inl rfl
  | false =>
    obtain ⟨hwh, hdone⟩ := hat.resolve_left (by simp [hstop])
    by_cases hloop : wh ≤ ((before + size : Nat) : Int)
    · rw [if_pos ⟨hloop, rfl⟩]
      refine ⟨hwh, ?_, trivial, by simpa [Stage.done] using hdone⟩
      change l.counted < size
      omega
    · rw [if_neg fun hboth => hloop hboth.1]
      refine .inr ?_
      change l.counted = size
      omega

/-- The fetch-and-add of `WarehousesLoaded`. -/
theorem count {wh : Int} (h : LoaderOk before size stop l) (hpc : l.pc = .load wh .count) :
    After before size stop l ⟨{ l with pc := .log wh, counted := l.counted + 1 }, true, false⟩ := by
  have hat := h.at_pc
  simp only [Loader.At, hpc] at hat
  obtain ⟨hwh, hlt, -, hdone⟩ := hat
  have hnext : l.done = loadsFrom before (l.counted + 1) := by
    rw [hdone, hwh, loadsFrom_succ]
    rfl
  refine ⟨?_, rfl⟩
  rw [Bool.or_false]
  refine ⟨hlt, fun hfull => ?_, .inr ⟨?_, hnext⟩⟩
  · have hsize : l.counted + 1 = size := hfull
    rw [← hsize]
    exact hnext
  · rw [hwh, Nat.add_assoc]

/-- One step of a loader. -/
theorem step (h : LoaderOk before size stop l)
    (hstep : l.step (before + 1 : Nat) (before + size : Nat) stop ok = some r) :
    After before size stop l r := by
  have hat := h.at_pc
  cases hpc : l.pc with
  | opening =>
    simp only [Loader.step, hpc, Option.some_inj] at hstep
    simp only [Loader.At, hpc] at hat
    subst hstep
    refine h.goto ?_
    cases ok with
    | true => exact .inr ⟨by simp [hat.1], by simp [hat.1, hat.2, loadsFrom]⟩
    | false => trivial
  | loop wh =>
    simp only [Loader.step, hpc, Option.some_inj] at hstep
    subst hstep
    exact h.loop hpc
  | load wh stage =>
    cases stage with
    | enter =>
      simp only [Loader.step, hpc, Option.some_inj] at hstep
      simp only [Loader.At, hpc] at hat
      subst hstep
      refine h.goto ?_
      cases stop with
      | true => exact .inl rfl
      | false => exact hat
    | stock =>
      simp only [Loader.step, hpc, Option.some_inj] at hstep
      subst hstep
      exact h.call hpc (fun _ => ⟨by decide, by decide⟩) fun _ => rfl
    | district d =>
      simp only [Loader.step, hpc, Option.some_inj] at hstep
      simp only [Loader.At, hpc] at hat
      subst hstep
      obtain ⟨hwh, hlt, hvalid, hdone⟩ := hat
      refine h.goto ?_
      by_cases hd : d ≤ districtHighId
      · rw [if_pos hd]
        cases stop with
        | true => exact .inl rfl
        | false => exact ⟨hwh, hlt, ⟨hvalid.1, hd⟩, hdone⟩
      · rw [if_neg hd]
        obtain rfl : d = districtHighId + 1 := Nat.le_antisymm hvalid.2 (Nat.not_le.mp hd)
        exact ⟨hwh, hlt, trivial, hdone⟩
    | customers d =>
      simp only [Loader.step, hpc, Option.some_inj] at hstep
      subst hstep
      exact h.call hpc (fun hvalid => hvalid) fun _ => rfl
    | history d =>
      simp only [Loader.step, hpc, Option.some_inj] at hstep
      subst hstep
      exact h.call hpc (fun hvalid => hvalid) fun _ => List.append_assoc _ _ _
    | orders d =>
      simp only [Loader.step, hpc, Option.some_inj] at hstep
      subst hstep
      refine h.call hpc (fun hvalid => ⟨by omega, Nat.succ_le_succ hvalid.2⟩) fun hvalid => ?_
      rw [Stage.done, Stage.done, districtsDone_succ wh hvalid.1, List.append_assoc]
      rfl
    | count =>
      simp only [Loader.step, hpc, Option.some_inj] at hstep
      subst hstep
      exact h.count hpc
  | log wh =>
    simp only [Loader.step, hpc, Option.some_inj] at hstep
    simp only [Loader.At, hpc] at hat
    subst hstep
    refine h.goto ?_
    cases ok with
    | true => exact hat.imp_right fun ⟨hwh, hdone⟩ => ⟨by rw [hwh]; rfl, hdone⟩
    | false => trivial
  | caught =>
    simp only [Loader.step, hpc, Option.some_inj] at hstep
    subst hstep
    exact ⟨⟨h.counted, h.full, .inl (Bool.or_true stop)⟩, rfl⟩
  | ended => simp [Loader.step, hpc] at hstep

end LoaderOk

end Loaders

section System

variable {config : TImportConfig} {s s' : State}

/-- The number of warehouses of a thread. -/
def TImportConfig.size (config : TImportConfig) (tid : Nat) : Nat :=
  config.before (tid + 1) - config.before tid

/-- The loaders from thread `tid` on have counted no more warehouses than are theirs, and when they
have counted all, they have loaded these. -/
theorem loaders_complete {stop : Bool} {loaders : List Loader} {tid : Nat}
    (h : ∀ i l, loaders[i]? = some l →
      LoaderOk (config.before (tid + i)) (config.size (tid + i)) stop l) :
    config.before tid + (loaders.map Loader.counted).sum ≤ config.before (tid + loaders.length) ∧
      (config.before (tid + loaders.length) ≤
          config.before tid + (loaders.map Loader.counted).sum →
        loaders.flatMap Loader.done = loadsFrom (config.before tid)
          (config.before (tid + loaders.length) - config.before tid)) := by
  induction loaders generalizing tid with
  | nil => simp [loadsFrom]
  | cons l loaders ih =>
    have hfirst : LoaderOk (config.before tid) (config.size tid) stop l := h 0 l rfl
    have hrest := @ih (tid + 1) fun i l' hl' => by
      have hok := h (i + 1) l' hl'
      rwa [← Nat.add_assoc, Nat.add_right_comm] at hok
    have hlength : tid + (l :: loaders).length = tid + 1 + loaders.length := by
      rw [List.length_cons]
      omega
    have hle : config.before tid ≤ config.before (tid + 1) := before_mono (Nat.le_add_right tid 1)
    have hcounted := hfirst.counted
    simp only [TImportConfig.size] at hcounted
    rw [hlength, List.map_cons, List.sum_cons]
    obtain ⟨hbound, hfull⟩ := hrest
    refine ⟨by omega, fun hall => ?_⟩
    have hmono : config.before (tid + 1) ≤ config.before (tid + 1 + loaders.length) :=
      before_mono (Nat.le_add_right _ _)
    have hmine : l.counted = config.size tid := by
      simp only [TImportConfig.size]
      omega
    rw [List.flatMap_cons, hfirst.full hmine, hfull (by omega)]
    have hsplit : config.before (tid + 1) = config.before tid + config.size tid := by
      simp only [TImportConfig.size]
      omega
    rw [hsplit, loadsFrom_append]
    congr 1
    omega

/-- What the place of the main thread says about the rest. -/
def State.MainAt (config : TImportConfig) (s : State) : Prop :=
  match s.main with
  | .start => s.loaders = []
  | .shared => s.loaders = []
  | .spawn tid => s.loaders.length = tid
  | .readLoaded => s.loaders.length = config.threadCount
  | .readStop => s.loaders.length = config.threadCount
  | .sleep => s.loaders.length = config.threadCount
  | .sample =>
    s.loaders.length = config.threadCount ∧
      (config.warehouseCount ≤ s.warehousesLoaded ∨ s.stop = true)
  | .join _ wasInterrupted =>
    s.loaders.length = config.threadCount ∧
      (wasInterrupted = false → config.warehouseCount ≤ s.warehousesLoaded)
  | .decide wasInterrupted =>
    s.loaders.length = config.threadCount ∧
      (wasInterrupted = false → config.warehouseCount ≤ s.warehousesLoaded)
  | .analyzeTables =>
    s.loaders.length = config.threadCount ∧ config.warehouseCount ≤ s.warehousesLoaded
  | .createIndexes =>
    s.loaders.length = config.threadCount ∧ config.warehouseCount ≤ s.warehousesLoaded
  | .finished =>
    s.loaders.length = config.threadCount ∧ config.warehouseCount ≤ s.warehousesLoaded
  | .threw _ => True

structure Inv (config : TImportConfig) (s : State) : Prop where
  bound : s.loaders.length ≤ config.threadCount
  loaders : ∀ tid l, s.loaders[tid]? = some l →
    LoaderOk (config.before tid) (config.size tid) s.stop l
  counted : s.warehousesLoaded = (s.loaders.map Loader.counted).sum
  main : s.MainAt config

namespace Inv

theorem initial (stop : Bool) : Inv config (.initial stop) where
  bound := Nat.zero_le _
  loaders := by simp [State.initial]
  counted := rfl
  main := rfl

/-- A step of the main thread that only changes its place. -/
theorem goto {main : MainPc} (h : Inv config s)
    (hmain : ({ s with main := main } : State).MainAt config) :
    Inv config { s with main := main } := ⟨h.bound, h.loaders, h.counted, hmain⟩

theorem mainStep {ok : Bool} (h : Inv config s) (hstep : s.mainStep config ok = some s') :
    Inv config s' := by
  have hmain := h.main
  cases hpc : s.main with
  | start =>
    simp only [State.mainStep, hpc, Option.some_inj] at hstep
    simp only [State.MainAt, hpc] at hmain
    subst hstep
    refine h.goto ?_
    split
    · trivial
    · exact hmain
  | shared =>
    simp only [State.mainStep, hpc, Option.some_inj] at hstep
    simp only [State.MainAt, hpc] at hmain
    subst hstep
    refine h.goto ?_
    split
    · exact congrArg List.length hmain
    · trivial
  | spawn tid =>
    simp only [State.mainStep, hpc] at hstep
    simp only [State.MainAt, hpc] at hmain
    split at hstep
    · next htid =>
      obtain rfl := Option.some.inj hstep
      refine ⟨?_, fun i l hl => ?_, ?_, ?_⟩
      · rw [List.length_append, hmain]
        exact htid
      · rcases Nat.lt_or_ge i s.loaders.length with hi | hi
        · rw [List.getElem?_append_left hi] at hl
          exact h.loaders i l hl
        · rw [List.getElem?_append_right hi] at hl
          obtain ⟨-, rfl⟩ : i - s.loaders.length = 0 ∧ ⟨.opening, [], 0⟩ = l := by
            simpa [List.getElem?_singleton] using hl
          exact ⟨Nat.zero_le _, fun hsize => by rw [← hsize]; rfl, rfl, rfl⟩
      · simpa using h.counted
      · change (s.loaders ++ [_]).length = tid + 1
        rw [List.length_append, hmain]
        rfl
    · next htid =>
      obtain rfl := Option.some.inj hstep
      refine h.goto ?_
      have hbound := h.bound
      change s.loaders.length = config.threadCount
      omega
  | readLoaded =>
    simp only [State.mainStep, hpc, Option.some_inj] at hstep
    simp only [State.MainAt, hpc] at hmain
    subst hstep
    refine h.goto ?_
    split
    · exact hmain
    · next hall => exact ⟨hmain, .inl (Nat.not_lt.mp hall)⟩
  | readStop =>
    simp only [State.mainStep, hpc, Option.some_inj] at hstep
    simp only [State.MainAt, hpc] at hmain
    subst hstep
    refine h.goto ?_
    split
    · next hstop => exact ⟨hmain, .inr hstop⟩
    · exact hmain
  | sleep =>
    simp only [State.mainStep, hpc, Option.some_inj] at hstep
    simp only [State.MainAt, hpc] at hmain
    subst hstep
    exact h.goto hmain
  | sample =>
    simp only [State.mainStep, hpc, Option.some_inj] at hstep
    simp only [State.MainAt, hpc] at hmain
    subst hstep
    refine h.goto ⟨hmain.1, fun hstop => hmain.2.resolve_right (by simp [hstop])⟩
  | join tid wasInterrupted =>
    simp only [State.mainStep, hpc] at hstep
    simp only [State.MainAt, hpc] at hmain
    split at hstep
    · obtain rfl := Option.some.inj hstep
      exact h.goto hmain
    · split at hstep
      · obtain rfl := Option.some.inj hstep
        exact h.goto hmain
      · cases hstep
  | decide wasInterrupted =>
    simp only [State.mainStep, hpc, Option.some_inj] at hstep
    simp only [State.MainAt, hpc] at hmain
    subst hstep
    refine h.goto ?_
    cases wasInterrupted with
    | true => trivial
    | false => exact ⟨hmain.1, hmain.2 rfl⟩
  | analyzeTables =>
    simp only [State.mainStep, hpc, Option.some_inj] at hstep
    simp only [State.MainAt, hpc] at hmain
    subst hstep
    refine h.goto ?_
    split
    · exact hmain
    · trivial
  | createIndexes =>
    simp only [State.mainStep, hpc, Option.some_inj] at hstep
    simp only [State.MainAt, hpc] at hmain
    subst hstep
    refine h.goto ?_
    split
    · exact hmain
    · trivial
  | finished => simp [State.mainStep, hpc] at hstep
  | threw what => simp [State.mainStep, hpc] at hstep

/-- What the main thread relies on stays when warehouses are counted, loaders move and the stop is
requested. -/
theorem main_mono {loaders : List Loader} {loaded : Nat} {stop : Bool} (h : Inv config s)
    (hlength : loaders.length = s.loaders.length) (hloaded : s.warehousesLoaded ≤ loaded)
    (hstop : s.stop = true → stop = true) :
    (⟨s.main, loaders, loaded, stop⟩ : State).MainAt config := by
  have hmain := h.main
  have hle : config.warehouseCount ≤ s.warehousesLoaded → config.warehouseCount ≤ loaded :=
    fun hall => hall.trans hloaded
  have hnil : s.loaders = [] → loaders = [] := by
    intro hempty
    rw [hempty] at hlength
    exact List.length_eq_zero_iff.mp hlength
  cases hpc : s.main <;> simp only [State.MainAt, hpc] at hmain ⊢
  case start => exact hnil hmain
  case shared => exact hnil hmain
  case spawn => exact hlength.trans hmain
  case readLoaded => exact hlength.trans hmain
  case readStop => exact hlength.trans hmain
  case sleep => exact hlength.trans hmain
  case sample => exact ⟨hlength.trans hmain.1, hmain.2.imp hle hstop⟩
  case join => exact ⟨hlength.trans hmain.1, fun hwas => hle (hmain.2 hwas)⟩
  case decide => exact ⟨hlength.trans hmain.1, fun hwas => hle (hmain.2 hwas)⟩
  case analyzeTables => exact ⟨hlength.trans hmain.1, hle hmain.2⟩
  case createIndexes => exact ⟨hlength.trans hmain.1, hle hmain.2⟩
  case finished => exact ⟨hlength.trans hmain.1, hle hmain.2⟩

theorem sum_set {loaders : List Loader} {tid : Nat} {l l' : Loader} {n : Nat}
    (hl : loaders[tid]? = some l) (hcounted : l'.counted = l.counted + n) :
    ((loaders.set tid l').map Loader.counted).sum = (loaders.map Loader.counted).sum + n := by
  induction loaders generalizing tid with
  | nil => cases hl
  | cons a loaders ih =>
    cases tid with
    | zero =>
      obtain rfl := Option.some.inj hl
      simp only [List.set_cons_zero, List.map_cons, List.sum_cons, hcounted]
      omega
    | succ tid =>
      simp only [List.set_cons_succ, List.map_cons, List.sum_cons, ih hl]
      omega

theorem loaderStep {tid : Nat} {ok : Bool} (hconfig : config.Countable) (h : Inv config s)
    (hstep : s.step config (.loader tid ok) = some s') : Inv config s' := by
  simp only [State.step] at hstep
  split at hstep
  · cases hstep
  · next l hl =>
    obtain ⟨r, hr, rfl⟩ := Option.map_eq_some_iff.mp hstep
    have htid : tid < config.threadCount :=
      (List.getElem?_eq_some_iff.mp hl).1.trans_le h.bound
    have hmine := h.loaders tid l hl
    obtain ⟨hstart, hend⟩ := wh_eq hconfig htid
    have hsize : config.before (tid + 1) = config.before tid + config.size tid := by
      have hle : config.before tid ≤ config.before (tid + 1) :=
        before_mono (Nat.le_add_right tid 1)
      simp only [TImportConfig.size]
      omega
    rw [hstart, hend, hsize] at hr
    obtain ⟨hafter, hcounted⟩ := hmine.step hr
    refine ⟨?_, fun i l' hl' => ?_, ?_, ?_⟩
    · rw [List.length_set]
      exact h.bound
    · by_cases hi : tid = i
      · subst hi
        rw [List.getElem?_set_self (List.getElem?_eq_some_iff.mp hl).1] at hl'
        obtain rfl := Option.some.inj hl'
        exact hafter
      · rw [List.getElem?_set_ne hi] at hl'
        exact (h.loaders i l' hl').or_stop r.stops
    · rw [sum_set hl hcounted, ← h.counted]
      split <;> rfl
    · refine h.main_mono (List.length_set) ?_ fun hstop => by rw [hstop, Bool.true_or]
      split
      · exact Nat.le_succ _
      · exact le_rfl

theorem step {action : Action} (hconfig : config.Countable) (h : Inv config s)
    (hstep : s.step config action = some s') : Inv config s' := by
  cases action with
  | main ok => exact h.mainStep hstep
  | loader tid ok => exact h.loaderStep hconfig hstep
  | interrupt =>
    obtain rfl := Option.some.inj hstep
    refine ⟨h.bound, fun tid l hl => ?_, h.counted, h.main_mono rfl le_rfl fun _ => rfl⟩
    have hok := (h.loaders tid l hl).or_stop true
    rwa [Bool.or_true] at hok

/-- No more than the warehouses are counted, and once they are, they have been loaded. -/
theorem complete (hconfig : config.Countable) (h : Inv config s)
    (hlength : s.loaders.length = config.threadCount) :
    s.warehousesLoaded ≤ config.warehouseCount ∧
      (config.warehouseCount ≤ s.warehousesLoaded →
        s.loaders.flatMap Loader.done = loadsFrom 0 config.warehouseCount) := by
  have hall := @loaders_complete config s.stop s.loaders 0 fun i l hl => by
    rw [Nat.zero_add]
    exact h.loaders i l hl
  rw [Nat.zero_add, hlength, before_threadCount hconfig, before_zero, Nat.zero_add,
    ← h.counted] at hall
  exact hall

/-- When all loaders have ended, all warehouses are counted or the stop is requested. -/
theorem ended (hconfig : config.Countable) (h : Inv config s)
    (hlength : s.loaders.length = config.threadCount)
    (hended : ∀ l ∈ s.loaders, l.pc = .ended) :
    s.warehousesLoaded = config.warehouseCount ∨ s.stop = true := by
  by_cases hstop : s.stop = true
  · exact .inr hstop
  · refine .inl ?_
    have hcounts : ∀ (n : Nat) (loaders : List Loader), (∀ i l, loaders[i]? = some l →
        l.counted = config.size (n + i)) →
        config.before n + (loaders.map Loader.counted).sum =
          config.before (n + loaders.length) := by
      intro n loaders hcounted
      induction loaders generalizing n with
      | nil => rfl
      | cons l loaders ih =>
        have hfirst : l.counted = config.size n := hcounted 0 l rfl
        have hrest := ih (n + 1) fun i l' hl' => by
          have hnext := hcounted (i + 1) l' hl'
          rwa [← Nat.add_assoc, Nat.add_right_comm] at hnext
        have hle : config.before n ≤ config.before (n + 1) := before_mono (Nat.le_add_right n 1)
        have hsum : n + (l :: loaders).length = n + 1 + loaders.length := by
          rw [List.length_cons]
          omega
        rw [hsum, ← hrest, List.map_cons, List.sum_cons, hfirst, TImportConfig.size]
        omega
    have hsum := hcounts 0 s.loaders fun i l hl => by
      have hat := (h.loaders i l hl).at_pc
      simp only [Loader.At, hended l (List.mem_of_getElem? hl)] at hat
      rw [Nat.zero_add]
      exact hat.resolve_left hstop
    rwa [Nat.zero_add, hlength, before_threadCount hconfig, before_zero, Nat.zero_add,
      ← h.counted] at hsum

end Inv

theorem run_inv {start : State} {actions : List Action} (hconfig : config.Countable)
    (hinit : (lts config).init start) (hrun : (lts config).Run start actions s) : Inv config s := by
  obtain ⟨stop, rfl⟩ := hinit
  exact hrun.preserves (I := Inv config) (fun _ _ _ h hstep => h.step hconfig hstep)
    (.initial stop)

/-- A loader that has not ended can move. -/
theorem exists_loader_step {tid : Nat} {l : Loader} (hl : s.loaders[tid]? = some l)
    (hpc : l.pc ≠ .ended) : s.step config (.loader tid true) ≠ none := by
  have hstep : l.step (config.whStart tid) (config.whEnd tid) s.stop true ≠ none := by
    unfold Loader.step
    split <;> first | exact Option.some_ne_none _ | contradiction
  simp only [State.step, hl, ne_eq, Option.map_eq_none_iff]
  exact hstep

/-- The main thread is in its progress loop. -/
def State.Waiting (s : State) : Prop :=
  s.main = .readLoaded ∨ s.main = .readStop ∨ s.main = .sleep

/-- The main thread has gone on to `AnalyzeTables`. -/
def State.PastLoading (s : State) : Prop :=
  s.main = .analyzeTables ∨ s.main = .createIndexes ∨ s.main = .finished

/-- What holds of the ranges and of a state that the import reaches. -/
structure Covered (config : TImportConfig) (s : State) : Prop where
  /-- The ranges are not empty, and one after another they are the warehouses. -/
  nonempty : ∀ tid < config.threadCount, config.whStart tid ≤ config.whEnd tid
  ranges : (List.range config.threadCount).flatMap
      (fun tid => intRange (config.whStart tid) (config.whEnd tid)) =
    (List.range' 1 config.warehouseCount).map fun (w : Nat) => (w : Int)
  /-- The calls that have returned are those for every warehouse, each once. -/
  loaded : s.PastLoading → s.loaders.flatMap Loader.done =
    (List.range' 1 config.warehouseCount).flatMap fun (w : Nat) => warehouseLoads w
  /-- The progress loop ends once all loaders have. -/
  wakes : s.Waiting → (∀ l ∈ s.loaders, l.pc = .ended) →
    s.warehousesLoaded = config.warehouseCount ∨ s.stop = true
  /-- A state without a next step is one where the import is finished or has thrown. -/
  ends : (∀ action, action ≠ .interrupt → s.step config action = none) →
    s.main = .finished ∨ ∃ what, s.main = .threw what

/-- For every number of warehouses, every number of threads and every interleaving with exceptions
and stop requests, the ranges cover the warehouses, the import goes on only with all of them loaded
once, and it never waits for loaders that have ended. -/
theorem run_covered {start : State} {actions : List Action} (hconfig : config.Countable)
    (hinit : (lts config).init start) (hrun : (lts config).Run start actions s) :
    Covered config s := by
  have h := run_inv hconfig hinit hrun
  have hmain := h.main
  refine ⟨fun tid htid => ?_, ?_, fun hpast => ?_, fun hwaiting hended => ?_, fun hstuck => ?_⟩
  · obtain ⟨hstart, hend⟩ := wh_eq hconfig htid
    have hlt := before_lt_succ hconfig tid
    rw [hstart, hend]
    omega
  · rw [ranges_take hconfig le_rfl, before_threadCount hconfig]
  · obtain ⟨hlength, hall⟩ : s.loaders.length = config.threadCount ∧
        config.warehouseCount ≤ s.warehousesLoaded := by
      rcases hpast with hpc | hpc | hpc <;> simpa only [State.MainAt, hpc] using hmain
    exact (h.complete hconfig hlength).2 hall
  · have hlength : s.loaders.length = config.threadCount := by
      rcases hwaiting with hpc | hpc | hpc <;> simpa only [State.MainAt, hpc] using hmain
    exact h.ended hconfig hlength hended
  · have hnone := hstuck (.main true) (by simp)
    simp only [State.step] at hnone
    cases hpc : s.main with
    | finished => exact .inl rfl
    | threw what => exact .inr ⟨what, rfl⟩
    | join tid wasInterrupted =>
      simp only [State.mainStep, hpc] at hnone
      split at hnone
      · cases hnone
      · next l hl =>
        split at hnone
        · cases hnone
        · next hended =>
          exact absurd (hstuck (.loader tid true) (by simp)) (exists_loader_step hl hended)
    | spawn tid =>
      simp only [State.mainStep, hpc] at hnone
      split at hnone <;> cases hnone
    | _ => simp [State.mainStep, hpc] at hnone

/-- The steps of an import of three warehouses that meets no error: the main thread polls once, and
the two loaders take turns until the first has no warehouse left. -/
def threeWarehouses : List Action :=
  List.replicate 8 (.main true) ++
    (List.replicate 48 [Action.loader 0 true, Action.loader 1 true]).flatten ++
    List.replicate 46 (.loader 1 true) ++ List.replicate 6 (.main true)

theorem run_covered_three_warehouses :
    ∃ s, (lts ⟨3, 2, 8⟩).Run (.initial false) threeWarehouses s ∧ s.main = .analyzeTables ∧
      s.loaders.map Loader.counted = [1, 2] ∧ Covered ⟨3, 2, 8⟩ s := by
  let s := (threeWarehouses.foldlM (State.step ⟨3, 2, 8⟩) (.initial false)).get (by decide +kernel)
  have hrun : (lts ⟨3, 2, 8⟩).Run (.initial false) threeWarehouses s :=
    Lts.run_of_foldlM (Option.some_get _).symm
  exact ⟨s, hrun, by decide +kernel, by decide +kernel,
    run_covered ⟨by decide, by decide⟩ ⟨false, rfl⟩ hrun⟩

end System

end Tpcc.Import
