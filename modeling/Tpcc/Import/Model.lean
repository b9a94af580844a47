import Mathlib.Algebra.GroupWithZero.Nat
import Tpcc.Lib.Transition
import Tpcc.Transaction.Tasks

/-! `ImportSync`: the main thread, the loader threads with their ranges of warehouses, and the stop
flag. -/

namespace Tpcc.Import

open Lib Transaction

structure TImportConfig where
  warehouseCount : Nat
  loadThreadCount : Nat
  numberOfMyCpus : Nat
  deriving DecidableEq

def maxLoaderThreads : Nat := 100

namespace TImportConfig

variable (config : TImportConfig)

def threadCount : Nat :=
  let threadCount :=
    if config.loadThreadCount = 0 then
      min (min config.warehouseCount config.numberOfMyCpus) maxLoaderThreads
    else config.loadThreadCount
  min (max threadCount 1) config.warehouseCount

/-- A value of type `size_t`. -/
def sizeT (n : Nat) : Nat := n % 2 ^ 64

/-- `static_cast<int>`. -/
def castInt (n : Nat) : Int := if n % 2 ^ 32 < 2 ^ 31 then n % 2 ^ 32 else n % 2 ^ 32 - 2 ^ 32

def whStart (tid : Nat) : Int :=
  castInt (sizeT (sizeT (tid * config.warehouseCount) / config.threadCount + 1))

def whEnd (tid : Nat) : Int :=
  castInt (sizeT (sizeT (tid + 1) * config.warehouseCount) / config.threadCount)

end TImportConfig

/-- A call of a loader that has returned. -/
inductive Load
  | stock (wh : Int)
  | customers (wh : Int) (d : Nat)
  | history (wh : Int) (d : Nat)
  | orders (wh : Int) (d : Nat)
  deriving DecidableEq

/-- What `LoadWarehouse` does next. -/
inductive Stage
  | enter
  | stock
  | district (d : Nat)
  | customers (d : Nat)
  | history (d : Nat)
  | orders (d : Nat)
  | count
  deriving DecidableEq

/-- What a loader thread does next: open its session, test the loop's condition, go on in
`LoadWarehouse`, log, or handle an exception. -/
inductive LoaderPc
  | opening
  | loop (wh : Int)
  | load (wh : Int) (stage : Stage)
  | log (wh : Int)
  | caught
  | ended
  deriving DecidableEq

/-- A loader thread, with the calls that have returned and the number of warehouses it has
counted. -/
structure Loader where
  pc : LoaderPc
  done : List Load
  counted : Nat
  deriving DecidableEq

/-- What the main thread does next.  `threw none` is an exception of a call. -/
inductive MainPc
  | start
  | shared
  | spawn (tid : Nat)
  | readLoaded
  | readStop
  | sleep
  | sample
  | join (tid : Nat) (wasInterrupted : Bool)
  | decide (wasInterrupted : Bool)
  | analyzeTables
  | createIndexes
  | finished
  | threw (what : Option String)
  deriving DecidableEq

structure State where
  main : MainPc
  loaders : List Loader
  warehousesLoaded : Nat
  stop : Bool
  deriving DecidableEq

/-- The loader after one step, whether the step counts a warehouse and whether it requests the stop.
`ok` says whether the call of the step returns or throws. -/
structure LoaderStep where
  loader : Loader
  counts : Bool
  stops : Bool

def Loader.goto (l : Loader) (pc : LoaderPc) : LoaderStep := ⟨{ l with pc := pc }, false, false⟩

/-- A call that returns or throws. -/
def Loader.call (l : Loader) (ok : Bool) (load : Load) (pc : LoaderPc) : LoaderStep :=
  if ok then ⟨{ l with pc := pc, done := l.done ++ [load] }, false, false⟩ else l.goto .caught

/-- The step of the thread with warehouses `whStart` to `whEnd`. -/
def Loader.step (whStart whEnd : Int) (stop ok : Bool) (l : Loader) : Option LoaderStep :=
  match l.pc with
  | .opening => some (l.goto (if ok then .loop whStart else .caught))
  | .loop wh =>
    some (l.goto (if wh ≤ whEnd ∧ stop = false then .load wh .enter else .ended))
  | .load wh .enter => some (l.goto (if stop then .log wh else .load wh .stock))
  | .load wh .stock => some (l.call ok (.stock wh) (.load wh (.district districtLowId)))
  | .load wh (.district d) =>
    some (l.goto
      (if d ≤ districtHighId then if stop then .log wh else .load wh (.customers d)
      else .load wh .count))
  | .load wh (.customers d) => some (l.call ok (.customers wh d) (.load wh (.history d)))
  | .load wh (.history d) => some (l.call ok (.history wh d) (.load wh (.orders d)))
  | .load wh (.orders d) => some (l.call ok (.orders wh d) (.load wh (.district (d + 1))))
  | .load wh .count => some ⟨{ l with pc := .log wh, counted := l.counted + 1 }, true, false⟩
  | .log wh => some (l.goto (if ok then .loop (wh + 1) else .caught))
  | .caught => some ⟨{ l with pc := .ended }, false, true⟩
  | .ended => none

/-- The step of the main thread; `none` waits in `join`. -/
def State.mainStep (config : TImportConfig) (s : State) (ok : Bool) : Option State :=
  match s.main with
  | .start =>
    some { s with
      main :=
        if config.warehouseCount = 0 then
          .threw (some "Warehouse count must be greater than zero")
        else .shared }
  | .shared => some { s with main := if ok then .spawn 0 else .threw none }
  | .spawn tid =>
    if tid < config.threadCount then
      some { s with main := .spawn (tid + 1), loaders := s.loaders ++ [⟨.opening, [], 0⟩] }
    else some { s with main := .readLoaded }
  | .readLoaded =>
    some { s with
      main := if s.warehousesLoaded < config.warehouseCount then .readStop else .sample }
  | .readStop => some { s with main := if s.stop then .sample else .sleep }
  | .sleep => some { s with main := .readLoaded }
  | .sample => some { s with main := .join 0 s.stop }
  | .join tid wasInterrupted =>
    match s.loaders[tid]? with
    | none => some { s with main := .decide wasInterrupted }
    | some l =>
      if l.pc = .ended then some { s with main := .join (tid + 1) wasInterrupted } else none
  | .decide wasInterrupted =>
    some { s with
      main :=
        if wasInterrupted then .threw (some "Import was interrupted or failed. See logs.")
        else .analyzeTables }
  | .analyzeTables => some { s with main := if ok then .createIndexes else .threw none }
  | .createIndexes => some { s with main := if ok then .finished else .threw none }
  | .finished => none
  | .threw _ => none

/-- Who moves next, and whether its call returns or throws; `interrupt` is a stop request from
outside. -/
inductive Action
  | main (ok : Bool)
  | loader (tid : Nat) (ok : Bool)
  | interrupt
  deriving DecidableEq

def State.step (config : TImportConfig) (s : State) : Action → Option State
  | .main ok => s.mainStep config ok
  | .loader tid ok =>
    match s.loaders[tid]? with
    | none => none
    | some l =>
      (l.step (config.whStart tid) (config.whEnd tid) s.stop ok).map fun r =>
        { s with
          loaders := s.loaders.set tid r.loader
          warehousesLoaded := if r.counts then s.warehousesLoaded + 1 else s.warehousesLoaded
          stop := s.stop || r.stops }
  | .interrupt => some { s with stop := true }

/-- The stop may have been requested before. -/
def State.initial (stop : Bool) : State := ⟨.start, [], 0, stop⟩

def lts (config : TImportConfig) : Lts State Action :=
  .ofAction (fun s => ∃ stop, s = .initial stop) (State.step config)

end Tpcc.Import
