import Tpcc.Lib.Table
import Tpcc.Lib.Triple
import Tpcc.Stats.Buckets
import Tpcc.Stats.TerminalStats

/-! `Collect`: the sum of the stats of the threads is what one `TTerminalStats` would hold that got the
events of all of them. -/

namespace Tpcc.Stats

open Transaction Db Lib

/-- The order of `PerTransactionTypeStats`. -/
def transactionTypes : List ETransactionType :=
  [.newOrder, .delivery, .orderStatus, .payment, .stockLevel]

/-- What a terminal reports of a transaction. -/
inductive Event
  | addOK (l : Latencies)
  | incFailed
  | incUserAborted

namespace TTransactionStats

/-- One `Add` of `Collect`. -/
def addTo (h : TTransactionStats → THistogram)
    (set : TTransactionStats → THistogram → TTransactionStats) (source : THistogram) :
    EStateM Failure TTransactionStats Unit := do
  let dst ← get
  match (h dst).add source with
  | some h' => EStateM.set (set dst h')
  | none => throw (.runtime "Cannot add histograms with different parameters")

/-- `Collect`, a program on the destination. -/
def collect (s : TTransactionStats) : EStateM Failure TTransactionStats Unit := do
  modify fun dst => { dst with ok := dst.ok + s.ok }
  modify fun dst => { dst with failed := dst.failed + s.failed }
  modify fun dst => { dst with userAborted := dst.userAborted + s.userAborted }
  addTo latencyHistogramMs (fun dst h => { dst with latencyHistogramMs := h }) s.latencyHistogramMs
  addTo latencyHistogramFullMs (fun dst h => { dst with latencyHistogramFullMs := h })
    s.latencyHistogramFullMs
  addTo latencyHistogramPure (fun dst h => { dst with latencyHistogramPure := h })
    s.latencyHistogramPure

end TTransactionStats

namespace TTerminalStats

def defaultResolution : UInt64 := 4096

def highResolution : UInt64 := 16384

def maxResolution : UInt64 := 32768

/-- The constructor; `none` is an exception of a histogram's constructor. -/
def construct (highResHistogram : Bool) : Option TTerminalStats := do
  let h ← THistogram.new defaultResolution maxResolution
  if highResHistogram then
    let high ← THistogram.new highResolution maxResolution
    return new high
  else
    return new h

/-- Runs a program on the stats of one type. -/
def onType (type : ETransactionType) (m : EStateM Failure TTransactionStats Unit) :
    EStateM Failure TTerminalStats Unit := fun s =>
  match m (s.perTransactionTypeStats type) with
  | .ok _ t => .ok () (s.set type t)
  | .error e t => .error e (s.set type t)

/-- `Collect`, a program on the destination. -/
def collect (s : TTerminalStats) : EStateM Failure TTerminalStats Unit :=
  transactionTypes.forM fun type => onType type (s.perTransactionTypeStats type).collect

/-- The call for an event. -/
def report (type : ETransactionType) : Event → EStateM Failure TTerminalStats Unit
  | .addOK l => addOK type l
  | .incFailed => modify fun s => s.incFailed type
  | .incUserAborted => modify fun s => s.incUserAborted type

end TTerminalStats

/-- The stats of the threads, and the ones into which they are collected. -/
structure AllStats (ι : Type) where
  perThreadStats : ι → TTerminalStats
  aggregated : TTerminalStats

namespace AllStats

variable {ι : Type} [DecidableEq ι]

/-- The call for an event, on the stats of a thread. -/
def report (thread : ι) (type : ETransactionType) (e : Event) : EStateM Failure (AllStats ι) Unit :=
  fun s =>
    match TTerminalStats.report type e (s.perThreadStats thread) with
    | .ok _ t => .ok () { s with perThreadStats := Function.update s.perThreadStats thread t }
    | .error f t => .error f { s with perThreadStats := Function.update s.perThreadStats thread t }

/-- `Collect` of the stats of a thread. -/
def collect (thread : ι) : EStateM Failure (AllStats ι) Unit := fun s =>
  match (s.perThreadStats thread).collect s.aggregated with
  | .ok _ t => .ok () { s with aggregated := t }
  | .error f t => .error f { s with aggregated := t }

end AllStats

namespace Event

def latencies? : Event → Option Latencies
  | addOK l => some l
  | _ => none

def isFailed : Event → Bool
  | incFailed => true
  | _ => false

def isUserAborted : Event → Bool
  | incUserAborted => true
  | _ => false

end Event

namespace TTransactionStats

/-- The stats after some events, with histograms of the shape of `h`. -/
def tally (h : THistogram) (events : List Event) : TTransactionStats where
  ok := UInt64.ofNat (events.filterMap Event.latencies?).length
  failed := UInt64.ofNat (events.countP Event.isFailed)
  userAborted := UInt64.ofNat (events.countP Event.isUserAborted)
  latencyHistogramMs := h.tally ((events.filterMap Event.latencies?).map Latencies.transaction)
  latencyHistogramFullMs := h.tally ((events.filterMap Event.latencies?).map Latencies.full)
  latencyHistogramPure := h.tally ((events.filterMap Event.latencies?).map Latencies.pure)

variable {h : THistogram} {events : List Event}

theorem new_eq_tally : new h = tally h [] := by
  rw [new, THistogram.reset_eq_tally]
  rfl

theorem tally_perm {a b : List Event} (hperm : a.Perm b) : tally h a = tally h b := by
  have hlatencies := hperm.filterMap Event.latencies?
  rw [tally, tally, hlatencies.length_eq, hperm.countP_eq, hperm.countP_eq,
    THistogram.tally_perm (hlatencies.map Latencies.transaction),
    THistogram.tally_perm (hlatencies.map Latencies.full),
    THistogram.tally_perm (hlatencies.map Latencies.pure)]

theorem addOK_tally (l : Latencies) :
    addOK l (tally h events) = .ok () (tally h (events ++ [.addOK l])) := by
  have hafter : tally h (events ++ [.addOK l]) =
      ⟨(tally h events).ok + 1, (tally h events).failed, (tally h events).userAborted,
        h.tally ((events.filterMap Event.latencies?).map Latencies.transaction ++ [l.transaction]),
        h.tally ((events.filterMap Event.latencies?).map Latencies.full ++ [l.full]),
        h.tally ((events.filterMap Event.latencies?).map Latencies.pure ++ [l.pure])⟩ := by
    simp [tally, Event.latencies?, Event.isFailed, Event.isUserAborted, UInt64.ofNat_add]
  rw [hafter]
  exact addOK_of_recordValue (THistogram.recordValue_tally _) (THistogram.recordValue_tally _)
    (THistogram.recordValue_tally _)

theorem incFailed_tally : (tally h events).incFailed = tally h (events ++ [.incFailed]) := by
  have hnone : [Event.incFailed].filterMap Event.latencies? = [] := rfl
  simp [incFailed, tally, hnone, Event.isFailed, Event.isUserAborted, UInt64.ofNat_add]

theorem incUserAborted_tally :
    (tally h events).incUserAborted = tally h (events ++ [.incUserAborted]) := by
  have hnone : [Event.incUserAborted].filterMap Event.latencies? = [] := rfl
  simp [incUserAborted, tally, hnone, Event.isFailed, Event.isUserAborted, UInt64.ofNat_add]

theorem addTo_eq {g : TTransactionStats → THistogram}
    {set : TTransactionStats → THistogram → TTransactionStats} {source : THistogram}
    {d : TTransactionStats} {g' : THistogram} (hadd : (g d).add source = some g') :
    addTo g set source d = .ok () (set d g') := by
  change (match (g d).add source with
    | some g' => EStateM.set (set d g')
    | none => throw (.runtime "Cannot add histograms with different parameters") :
      EStateM Failure TTransactionStats Unit) d = _
  rw [hadd]
  rfl

theorem collect_of_add {s dst : TTransactionStats} {latency full pure : THistogram}
    (hlatency : dst.latencyHistogramMs.add s.latencyHistogramMs = some latency)
    (hfull : dst.latencyHistogramFullMs.add s.latencyHistogramFullMs = some full)
    (hpure : dst.latencyHistogramPure.add s.latencyHistogramPure = some pure) :
    s.collect dst = .ok () ⟨dst.ok + s.ok, dst.failed + s.failed, dst.userAborted + s.userAborted,
      latency, full, pure⟩ := by
  have hmodify : ∀ (f : TTransactionStats → TTransactionStats) (t : TTransactionStats),
      (modify f : EStateM Failure TTransactionStats Unit) t = .ok () (f t) := fun _ _ => rfl
  refine (bind_of_ok (hmodify _ _)).trans ?_
  refine (bind_of_ok (hmodify _ _)).trans ?_
  refine (bind_of_ok (hmodify _ _)).trans ?_
  let d : TTransactionStats := { dst with
    ok := dst.ok + s.ok
    failed := dst.failed + s.failed
    userAborted := dst.userAborted + s.userAborted }
  refine (bind_of_ok (addTo_eq (d := d) hlatency)).trans ?_
  refine (bind_of_ok (addTo_eq (d := { d with latencyHistogramMs := latency }) hfull)).trans ?_
  exact addTo_eq
    (d := { d with latencyHistogramMs := latency, latencyHistogramFullMs := full }) hpure

/-- `Collect` of the stats after some events into those after others. -/
theorem collect_tally (a b : List Event) :
    (tally h b).collect (tally h a) = .ok () (tally h (a ++ b)) := by
  have hafter : tally h (a ++ b) =
      ⟨(tally h a).ok + (tally h b).ok, (tally h a).failed + (tally h b).failed,
        (tally h a).userAborted + (tally h b).userAborted,
        h.tally ((a.filterMap Event.latencies?).map Latencies.transaction ++
          (b.filterMap Event.latencies?).map Latencies.transaction),
        h.tally ((a.filterMap Event.latencies?).map Latencies.full ++
          (b.filterMap Event.latencies?).map Latencies.full),
        h.tally ((a.filterMap Event.latencies?).map Latencies.pure ++
          (b.filterMap Event.latencies?).map Latencies.pure)⟩ := by
    simp [tally, UInt64.ofNat_add]
  rw [hafter]
  exact collect_of_add (THistogram.add_tally _ _) (THistogram.add_tally _ _)
    (THistogram.add_tally _ _)

end TTransactionStats

namespace TTerminalStats

/-- The events of one type. -/
def ofType (events : List (ETransactionType × Event)) (type : ETransactionType) : List Event :=
  (events.filter fun e => e.1 = type).map Prod.snd

/-- The stats after some events, with histograms of the shape of `h`. -/
def tally (h : THistogram) (events : List (ETransactionType × Event)) : TTerminalStats :=
  ⟨fun type => .tally h (ofType events type), false⟩

variable {h : THistogram} {events : List (ETransactionType × Event)}

theorem new_eq_tally : new h = tally h [] := by
  rw [new, tally, TTransactionStats.new_eq_tally]
  rfl

theorem tally_perm {a b : List (ETransactionType × Event)} (hperm : a.Perm b) :
    tally h a = tally h b := by
  rw [tally, tally, TTerminalStats.mk.injEq]
  refine ⟨funext fun type => TTransactionStats.tally_perm ?_, rfl⟩
  exact (hperm.filter _).map _

theorem construct_eq (highResHistogram : Bool) :
    ∃ h, construct highResHistogram = some (tally h []) := by
  obtain ⟨low, -, hlow, -⟩ :=
    @THistogram.new_eq defaultResolution maxResolution (by decide) (by decide) (by decide)
  obtain ⟨high, -, hhigh, -⟩ :=
    @THistogram.new_eq highResolution maxResolution (by decide) (by decide) (by decide)
  cases highResHistogram with
  | false =>
    refine ⟨low, ?_⟩
    rw [construct, hlow, ← new_eq_tally]
    rfl
  | true =>
    refine ⟨high, ?_⟩
    rw [construct, hlow, hhigh, ← new_eq_tally]
    rfl

theorem set_tally (type : ETransactionType) (e : Event) :
    (tally h events).set type (.tally h (ofType events type ++ [e])) =
      tally h (events ++ [(type, e)]) := by
  rw [set, tally, tally, TTerminalStats.mk.injEq]
  refine ⟨funext fun type' => ?_, rfl⟩
  by_cases htype : type' = type
  · subst htype
    simp [ofType]
  · simp [ofType, htype, Ne.symm htype]

/-- One more event. -/
theorem report_tally (type : ETransactionType) (e : Event) :
    report type e (tally h events) = .ok () (tally h (events ++ [(type, e)])) := by
  rw [← set_tally]
  cases e with
  | addOK l =>
    rw [report, addOK]
    change (match TTransactionStats.addOK l (.tally h (ofType events type)) with
      | .ok _ t => .ok () ((tally h events).set type t)
      | .error e t => .error e ((tally h events).set type t) :
        EStateM.Result Failure TTerminalStats Unit) = _
    rw [TTransactionStats.addOK_tally]
  | incFailed =>
    rw [← TTransactionStats.incFailed_tally]
    rfl
  | incUserAborted =>
    rw [← TTransactionStats.incUserAborted_tally]
    rfl

theorem forM_report (more : List (ETransactionType × Event)) :
    (more.forM fun e => report e.1 e.2) (tally h events) = .ok () (tally h (events ++ more)) :=
  forM_of_append (fun _ e => report_tally e.1 e.2) events more

/-- The loop over the types changes the stats of each of them. -/
theorem forM_onType {m : ETransactionType → EStateM Failure TTransactionStats Unit}
    {t : ETransactionType → TTransactionStats} {types : List ETransactionType}
    (hnodup : types.Nodup) {s : TTerminalStats}
    (hrun : ∀ type ∈ types, m type (s.perTransactionTypeStats type) = .ok () (t type)) :
    (types.forM fun type => onType type (m type)) s =
      .ok () { s with
        perTransactionTypeStats := fun type =>
          if type ∈ types then t type else s.perTransactionTypeStats type } := by
  induction types generalizing s with
  | nil => simp; rfl
  | cons type types ih =>
    rw [List.nodup_cons] at hnodup
    have hfirst : onType type (m type) s = .ok () (s.set type (t type)) := by
      rw [onType, hrun type List.mem_cons_self]
    have hother : ∀ type' ∈ types, type' ≠ type := by
      rintro type' htype' rfl
      exact hnodup.1 htype'
    refine (bind_of_ok hfirst).trans ((ih hnodup.2 fun type' htype' => ?_).trans ?_)
    · have hsame : (s.set type (t type)).perTransactionTypeStats type' =
          s.perTransactionTypeStats type' := Function.update_of_ne (hother type' htype') _ _
      rw [hsame]
      exact hrun type' (List.mem_cons_of_mem type htype')
    · refine congrArg (EStateM.Result.ok ()) ?_
      rw [set, TTerminalStats.mk.injEq]
      refine ⟨funext fun type' => ?_, rfl⟩
      by_cases htype : type' = type
      · subst htype
        simp [hnodup.1]
      · simp [htype]

/-- `Collect` of the stats after some events into those after others. -/
theorem collect_tally (a b : List (ETransactionType × Event)) :
    (tally h b).collect (tally h a) = .ok () (tally h (a ++ b)) := by
  have hcollect : ∀ type ∈ transactionTypes,
      ((tally h b).perTransactionTypeStats type).collect ((tally h a).perTransactionTypeStats type) =
        .ok () (.tally h (ofType a type ++ ofType b type)) :=
    fun type _ => TTransactionStats.collect_tally _ _
  have hall : ∀ type, type ∈ transactionTypes := by
    intro type
    cases type <;> decide
  refine (forM_onType (by decide) hcollect).trans (congrArg (EStateM.Result.ok ()) ?_)
  rw [tally, tally, TTerminalStats.mk.injEq]
  refine ⟨funext fun type => ?_, rfl⟩
  rw [if_pos (hall type), ofType, ofType, ofType, List.filter_append, List.map_append]

end TTerminalStats

namespace AllStats

variable {ι : Type} [DecidableEq ι]

/-- The events of one thread. -/
def ofThread (assigned : List (ι × ETransactionType × Event)) (thread : ι) :
    List (ETransactionType × Event) :=
  (assigned.filter fun e => e.1 = thread).map Prod.snd

/-- The stats after events of the threads, of which some are collected. -/
def tally (h : THistogram) (assigned : List (ι × ETransactionType × Event))
    (collected : List (ETransactionType × Event)) : AllStats ι :=
  ⟨fun thread => .tally h (ofThread assigned thread), .tally h collected⟩

variable {h : THistogram} {assigned : List (ι × ETransactionType × Event)}
  {collected : List (ETransactionType × Event)}

theorem report_tally (thread : ι) (type : ETransactionType) (e : Event) :
    report thread type e (tally h assigned collected) =
      .ok () (tally h (assigned ++ [(thread, type, e)]) collected) := by
  change (match TTerminalStats.report type e (.tally h (ofThread assigned thread)) with
    | .ok _ t => .ok () { tally h assigned collected with
        perThreadStats := Function.update (tally h assigned collected).perThreadStats thread t }
    | .error f t => .error f { tally h assigned collected with
        perThreadStats := Function.update (tally h assigned collected).perThreadStats thread t } :
      EStateM.Result Failure (AllStats ι) Unit) = _
  rw [TTerminalStats.report_tally]
  refine congrArg (EStateM.Result.ok ()) ?_
  rw [tally, tally, AllStats.mk.injEq]
  refine ⟨funext fun thread' => ?_, rfl⟩
  by_cases hthread : thread' = thread
  · subst hthread
    simp [ofThread]
  · simp [ofThread, hthread, Ne.symm hthread]

theorem collect_tally (thread : ι) :
    collect thread (tally h assigned collected) =
      .ok () (tally h assigned (collected ++ ofThread assigned thread)) := by
  change (match (TTerminalStats.tally h (ofThread assigned thread)).collect (.tally h collected) with
    | .ok _ t => .ok () { tally h assigned collected with aggregated := t }
    | .error f t => .error f { tally h assigned collected with aggregated := t } :
      EStateM.Result Failure (AllStats ι) Unit) = _
  rw [TTerminalStats.collect_tally]
  rfl

/-- The events of the threads, one after the other. -/
theorem forM_report (more : List (ι × ETransactionType × Event)) :
    (more.forM fun e => report e.1 e.2.1 e.2.2) (tally h assigned collected) =
      .ok () (tally h (assigned ++ more) collected) :=
  forM_of_append (f := fun done => tally h done collected)
    (fun _ e => report_tally e.1 e.2.1 e.2.2) assigned more

/-- The `Collect` calls, one after the other. -/
theorem forM_collect (order : List ι) :
    (order.forM collect) (tally h assigned []) =
      .ok () (tally h assigned (order.flatMap (ofThread assigned))) := by
  refine forM_of_append (f := fun done => tally h assigned (done.flatMap (ofThread assigned)))
    (fun done thread => ?_) [] order
  rw [collect_tally, List.flatMap_append, List.flatMap_singleton]

/-- The threads have all the events. -/
theorem flatMap_ofThread_perm {order : List ι} (hnodup : order.Nodup)
    (hcover : ∀ e ∈ assigned, e.1 ∈ order) :
    (order.flatMap (ofThread assigned)).Perm (assigned.map Prod.snd) := by
  have hperm : (order.flatMap fun thread => assigned.filter fun e => e.1 = thread).Perm
      (assigned.filter fun e => e.1 ∈ order) := Table.flatMap_filter_perm hnodup
  have hall : (assigned.filter fun e => e.1 ∈ order) = assigned :=
    List.filter_eq_self.mpr fun e he => decide_eq_true (hcover e he)
  rw [hall] at hperm
  have hsnd := hperm.map Prod.snd
  rwa [List.map_flatMap] at hsnd

/-- However the events are split among threads of one resolution and in whatever order the threads are
collected, `Collect` never throws, leaves the threads as they are, and the aggregate is what a single
`TTerminalStats` holds after all the events. -/
theorem collect_eq_single (highResHistogram : Bool)
    (assigned : List (ι × ETransactionType × Event)) {order : List ι} (hnodup : order.Nodup)
    (hcover : ∀ e ∈ assigned, e.1 ∈ order) :
    ∃ empty single perThreadStats, TTerminalStats.construct highResHistogram = some empty ∧
      ((assigned.map Prod.snd).forM fun e => TTerminalStats.report e.1 e.2) empty =
        .ok () single ∧
      (assigned.forM fun e => report e.1 e.2.1 e.2.2) ⟨fun _ => empty, empty⟩ =
        .ok () ⟨perThreadStats, empty⟩ ∧
      (order.forM collect) ⟨perThreadStats, empty⟩ = .ok () ⟨perThreadStats, single⟩ := by
  obtain ⟨h, hempty⟩ := TTerminalStats.construct_eq highResHistogram
  refine ⟨_, .tally h (assigned.map Prod.snd), fun thread => .tally h (ofThread assigned thread),
    hempty, TTerminalStats.forM_report _, @forM_report ι _ h [] [] assigned,
    (forM_collect order).trans ?_⟩
  have hperm := TTerminalStats.tally_perm (h := h) (flatMap_ofThread_perm hnodup hcover)
  rw [tally, hperm]

/-- Two threads, collected in the other order. -/
theorem collect_eq_single_two :
    ∃ empty single perThreadStats, TTerminalStats.construct true = some empty ∧
      (([(0, .newOrder, .addOK ⟨5, 9, 2⟩), (1, .payment, .incFailed),
        (0, .newOrder, .addOK ⟨70000, 70001, 3⟩)].map Prod.snd).forM
          fun e : ETransactionType × Event => TTerminalStats.report e.1 e.2) empty = .ok () single ∧
      ([(0, .newOrder, .addOK ⟨5, 9, 2⟩), (1, .payment, .incFailed),
        (0, .newOrder, .addOK ⟨70000, 70001, 3⟩)].forM
          fun e : Nat × ETransactionType × Event => report e.1 e.2.1 e.2.2) ⟨fun _ => empty, empty⟩ =
        .ok () ⟨perThreadStats, empty⟩ ∧
      ([1, 0].forM collect) ⟨perThreadStats, empty⟩ = .ok () ⟨perThreadStats, single⟩ :=
  collect_eq_single true _ (by decide) (by simp)

end AllStats

end Tpcc.Stats
