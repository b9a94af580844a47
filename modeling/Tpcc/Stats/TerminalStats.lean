import Mathlib.Logic.Function.Basic
import Tpcc.Lib.Triple
import Tpcc.Stats.Histogram
import Tpcc.Terminal.Attempt
import Tpcc.Transaction.Tasks

/-! `TTerminalStats`: the counters and the latency histograms of each transaction type. -/

namespace Tpcc.Stats

open Transaction Terminal Db

structure TTransactionStats where
  ok : UInt64
  failed : UInt64
  userAborted : UInt64
  latencyHistogramMs : THistogram
  latencyHistogramFullMs : THistogram
  latencyHistogramPure : THistogram

structure TTerminalStats where
  perTransactionTypeStats : ETransactionType → TTransactionStats
  wasCleared : Bool

/-- The latencies of a successful transaction, in milliseconds. -/
structure Latencies where
  transaction : UInt64
  full : UInt64
  pure : UInt64

namespace TTransactionStats

/-- Before the first transaction, with empty histograms of the given shape. -/
def new (h : THistogram) : TTransactionStats := ⟨0, 0, 0, h.reset, h.reset, h.reset⟩

def count (s : TTransactionStats) : Counter → UInt64
  | .ok => s.ok
  | .failed => s.failed
  | .userAborted => s.userAborted

/-- One `RecordValue` of `AddOK`. -/
def record (h : TTransactionStats → THistogram)
    (set : TTransactionStats → THistogram → TTransactionStats) (value : UInt64) :
    EStateM Failure TTransactionStats Unit := do
  let s ← get
  match (h s).recordValue value with
  | some h' => EStateM.set (set s h')
  | none => throw (.runtime "THistogram internal error")

/-- `AddOK` for one type. -/
def addOK (l : Latencies) : EStateM Failure TTransactionStats Unit := do
  modify fun s => { s with ok := s.ok + 1 }
  record latencyHistogramMs (fun s h => { s with latencyHistogramMs := h }) l.transaction
  record latencyHistogramFullMs (fun s h => { s with latencyHistogramFullMs := h }) l.full
  record latencyHistogramPure (fun s h => { s with latencyHistogramPure := h }) l.pure

def incFailed (s : TTransactionStats) : TTransactionStats := { s with failed := s.failed + 1 }

def incUserAborted (s : TTransactionStats) : TTransactionStats :=
  { s with userAborted := s.userAborted + 1 }

def clear (s : TTransactionStats) : TTransactionStats :=
  ⟨0, 0, 0, s.latencyHistogramMs.reset, s.latencyHistogramFullMs.reset,
    s.latencyHistogramPure.reset⟩

/-- Each of the three histograms has one sample for each success. -/
structure Sampled (s : TTransactionStats) : Prop where
  latencyMs : s.latencyHistogramMs.totalCount = s.ok
  latencyFullMs : s.latencyHistogramFullMs.totalCount = s.ok
  latencyPure : s.latencyHistogramPure.totalCount = s.ok

/-- The change of one counter by one. -/
def Counted (c : Counter) (s s' : TTransactionStats) : Prop :=
  ∀ c', s'.count c' = s.count c' + if c' = c then 1 else 0

theorem record_eq {h : TTransactionStats → THistogram}
    {set : TTransactionStats → THistogram → TTransactionStats} {value : UInt64}
    {s : TTransactionStats} {h' : THistogram} (hrecord : (h s).recordValue value = some h') :
    record h set value s = .ok () (set s h') := by
  change (match (h s).recordValue value with
    | some h' => EStateM.set (set s h')
    | none => throw (.runtime "THistogram internal error") :
      EStateM Failure TTransactionStats Unit) s = _
  rw [hrecord]
  rfl

theorem addOK_of_recordValue {s : TTransactionStats} {l : Latencies} {latency full pure : THistogram}
    (hlatency : s.latencyHistogramMs.recordValue l.transaction = some latency)
    (hfull : s.latencyHistogramFullMs.recordValue l.full = some full)
    (hpure : s.latencyHistogramPure.recordValue l.pure = some pure) :
    addOK l s = .ok () ⟨s.ok + 1, s.failed, s.userAborted, latency, full, pure⟩ := by
  have hok : (modify fun s => { s with ok := s.ok + 1 } :
      EStateM Failure TTransactionStats Unit) s = .ok () { s with ok := s.ok + 1 } := rfl
  refine (Lib.bind_of_ok hok).trans ?_
  refine (Lib.bind_of_ok (record_eq (s := { s with ok := s.ok + 1 }) hlatency)).trans ?_
  refine (Lib.bind_of_ok (record_eq
    (s := { s with ok := s.ok + 1, latencyHistogramMs := latency }) hfull)).trans ?_
  exact record_eq (s := ⟨s.ok + 1, s.failed, s.userAborted, latency, full, _⟩) hpure

end TTransactionStats

namespace TTerminalStats

def new (h : THistogram) : TTerminalStats := ⟨fun _ => .new h, false⟩

/-- Changes the stats of one type. -/
def set (s : TTerminalStats) (type : ETransactionType) (t : TTransactionStats) : TTerminalStats :=
  { s with perTransactionTypeStats := Function.update s.perTransactionTypeStats type t }

/-- `AddOK`. -/
def addOK (type : ETransactionType) (l : Latencies) : EStateM Failure TTerminalStats Unit :=
  fun s =>
    match TTransactionStats.addOK l (s.perTransactionTypeStats type) with
    | .ok _ t => .ok () (s.set type t)
    | .error e t => .error e (s.set type t)

/-- `IncFailed`. -/
def incFailed (s : TTerminalStats) (type : ETransactionType) : TTerminalStats :=
  s.set type (s.perTransactionTypeStats type).incFailed

/-- `IncUserAborted`. -/
def incUserAborted (s : TTerminalStats) (type : ETransactionType) : TTerminalStats :=
  s.set type (s.perTransactionTypeStats type).incUserAborted

/-- `ClearOnce`. -/
def clearOnce (s : TTerminalStats) : TTerminalStats :=
  if s.wasCleared then s
  else ⟨fun type => (s.perTransactionTypeStats type).clear, true⟩

def Sampled (s : TTerminalStats) : Prop := ∀ type, (s.perTransactionTypeStats type).Sampled

/-- The only change is that of one counter of one type by one. -/
def Counted (type : ETransactionType) (c : Counter) (s s' : TTerminalStats) : Prop :=
  ∀ t, if t = type then
    TTransactionStats.Counted c (s.perTransactionTypeStats t) (s'.perTransactionTypeStats t)
    else s'.perTransactionTypeStats t = s.perTransactionTypeStats t

/-- The change by one counter, or by none. -/
def Changed (type : ETransactionType) : Option Counter → TTerminalStats → TTerminalStats → Prop
  | some c, s, s' => Counted type c s s'
  | none, s, s' => s' = s

end TTerminalStats

end Tpcc.Stats
