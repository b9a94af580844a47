import Tpcc.Check.Exact
import Tpcc.Store.Consistency

/-! Checks 3.3.2.2, 3.3.2.8 and 3.3.2.9 on tables from which whole groups of rows are absent. -/

namespace Tpcc.Check

open Lib Store Transaction

section Sums

variable {α β κ : Type} [DecidableEq κ] {rows : List α} {rows' : List β} {of : α → κ} {key : β → κ}
  {ytd : α → Money} {amount : β → Money}

/-- The checks of a column with the sums of the groups see the rows that have a group. -/
theorem checkSums_ok {description : String} :
    checkNoRows ((Sql.join (fun r g => of r = g.1) rows (Sql.groupBy key rows')).filter
        fun p => differs (ytd p.1) (p.2.2.map amount).sum) description = .ok () ↔
      ∀ r, r ∈ rows → (∃ r' ∈ rows', key r' = of r) →
        ytd r = Table.total (fun r' => key r' = of r) amount rows' := by
  rw [checkNoRows_ok, List.filter_eq_nil_iff]
  constructor
  · intro h r hr hgroup
    have hrow := h (r, of r, rows'.filter fun r' => key r' = of r) (Sql.mem_join.mpr
      ⟨hr, Sql.mem_groupBy.mpr ⟨hgroup, rfl⟩, by simp⟩)
    rwa [differs_eq_true, not_not] at hrow
  · rintro h ⟨r, k, group⟩ hmem
    obtain ⟨hr, hgroup, hon⟩ := Sql.mem_join.mp hmem
    obtain rfl : of r = k := by simpa using hon
    obtain ⟨hsome, rfl⟩ := Sql.mem_groupBy.mp hgroup
    rw [differs_eq_true, not_not]
    exact h r hr hsome

theorem total_of_none {k : κ} (h : ¬∃ r' ∈ rows', key r' = k) :
    Table.total (fun r' => key r' = k) amount rows' = 0 :=
  Table.total_eq_zero fun r' hr' hkey => absurd ⟨r', hr', of_decide_eq_true hkey⟩ h

end Sums

variable {db : Database}

/-- `W_YTD` is the sum of the warehouse's payments. -/
def WarehouseYtdOk (db : Database) (w : Warehouse) : Prop :=
  w.wYtd = Table.total (fun h => h.hWId = w.wId) History.hAmount db.history

/-- `D_YTD` is the sum of the district's payments. -/
def DistrictYtdOk (db : Database) (d : District) : Prop :=
  d.dYtd = Table.total (fun h => h.district = d.key) History.hAmount db.history

theorem consistencyCheck3328_ok :
    consistencyCheck3328 db = .ok () ↔
      ∀ w, w ∈ db.warehouse → (∃ h ∈ db.history, h.hWId = w.wId) → WarehouseYtdOk db w :=
  checkSums_ok

theorem consistencyCheck3329_ok :
    consistencyCheck3329 db = .ok () ↔
      ∀ d, d ∈ db.district → (∃ h ∈ db.history, h.district = d.key) → DistrictYtdOk db d :=
  checkSums_ok

/-- `D_NEXT_O_ID - 1` is the greatest order id, which a district without orders does not have, and
the greatest id of the new orders, if there are any. -/
def NextOrderOk (db : Database) (d : District) : Prop :=
  (match (orderIds db.oorder d.key).max? with
    | some greatest => (d.dNextOId : Int) - 1 = greatest
    | none => d.dNextOId = 1) ∧
  (newOrderIds db.newOrder d.key ≠ [] →
    (orderIds db.oorder d.key).max? = (newOrderIds db.newOrder d.key).max?)

section NextOrder

variable {α : Type} {column : α → Nat} {key : α → Nat × Nat} {rows : List α} {k : Nat × Nat}

/-- The `MAX` that a left join adds to a row is the maximum of the group, `NULL` if it is empty. -/
theorem groupOf_max :
    (Sql.groupOf key (fun group => (group.map column).max?) rows k).bind Prod.snd =
      ((rows.filter fun r => key r = k).map column).max? := by
  by_cases hempty : rows.filter (fun r => key r = k) = []
  · rw [Sql.groupOf_eq_none hempty, hempty]
    rfl
  · rw [Sql.groupOf_eq_some hempty]
    rfl

/-- The condition of the query for the greatest ids of a district. -/
theorem nextOrder_where {next : Nat} {maxOId maxNoOId : Option Nat} :
    Sql.or (Sql.ne (some ((next : Int) - 1)) (maxOId.map Int.ofNat))
        (Sql.ne (maxOId.map Int.ofNat) (maxNoOId.map Int.ofNat)) ≠ some true ↔
      (maxOId ≠ none → (match maxOId with
        | some greatest => (next : Int) - 1 = greatest
        | none => next = 1) ∧ (maxNoOId ≠ none → maxOId = maxNoOId)) := by
  cases maxOId with
  | none => cases maxNoOId <;> simp [Sql.or, Sql.ne]
  | some greatest =>
    cases maxNoOId with
    | none =>
      by_cases hnext : (next : Int) - 1 = greatest
      · simp [Sql.or, Sql.ne, hnext]
      · simp [Sql.or, Sql.ne, hnext]
    | some greatest' =>
      by_cases hnext : (next : Int) - 1 = greatest
      · by_cases hsame : greatest = greatest'
        · simp [Sql.or, Sql.ne, hnext, hsame]
        · simp [Sql.or, Sql.ne, hnext, hsame]
      · simp [Sql.or, Sql.ne, hnext]

end NextOrder

theorem nextOrderOk_of_nil {d : District} (h : orderIds db.oorder d.key = []) :
    NextOrderOk db d ↔ d.dNextOId = 1 ∧ newOrderIds db.newOrder d.key = [] := by
  rw [NextOrderOk, h]
  refine and_congr_right fun _ => ?_
  constructor
  · intro hmax
    by_contra hne
    exact hne (List.max?_eq_none_iff.mp (hmax hne).symm)
  · exact fun hnil hne => absurd hnil hne

/-- Check 3.3.2.2 looks at the districts that have orders. -/
theorem consistencyCheck3322_ok :
    consistencyCheck3322 db = .ok () ↔
      ∀ d, d ∈ db.district → orderIds db.oorder d.key ≠ [] → NextOrderOk db d := by
  have hwhere : ∀ d : District, (Sql.or (Sql.ne (some ((d.dNextOId : Int) - 1))
        ((orderIds db.oorder d.key).max?.map Int.ofNat))
      (Sql.ne ((orderIds db.oorder d.key).max?.map Int.ofNat)
        ((newOrderIds db.newOrder d.key).max?.map Int.ofNat)) ≠ some true) ↔
      (orderIds db.oorder d.key ≠ [] → NextOrderOk db d) := by
    intro d
    rw [nextOrder_where, NextOrderOk]
    simp only [ne_eq, List.max?_eq_none_iff]
  have hjoined : consistencyCheck3322 db = checkNoRows
      ((Sql.leftJoin (fun (r : District × _) n => r.1.key = n.1)
        (Sql.leftJoin (fun d o => d.key = o.1) db.district
          (Sql.groups Oorder.district (fun rows => (rows.map Oorder.oId).max?) db.oorder))
        (Sql.groups NewOrder.district (fun rows => (rows.map NewOrder.noOId).max?)
          db.newOrder)).filter fun r =>
        Sql.or (Sql.ne (some ((r.1.1.dNextOId : Int) - 1)) ((r.1.2.bind Prod.snd).map Int.ofNat))
          (Sql.ne ((r.1.2.bind Prod.snd).map Int.ofNat) ((r.2.bind Prod.snd).map Int.ofNat)) =
            some true) "" := rfl
  have hmem : ∀ d o n, ((d, o), n) ∈ Sql.leftJoin (fun (r : District × _) n => r.1.key = n.1)
        (Sql.leftJoin (fun d o => d.key = o.1) db.district
          (Sql.groups Oorder.district (fun rows => (rows.map Oorder.oId).max?) db.oorder))
        (Sql.groups NewOrder.district (fun rows => (rows.map NewOrder.noOId).max?)
          db.newOrder) ↔
      (d ∈ db.district ∧
          o = Sql.groupOf Oorder.district (fun rows => (rows.map Oorder.oId).max?) db.oorder d.key) ∧
        n = Sql.groupOf NewOrder.district (fun rows => (rows.map NewOrder.noOId).max?) db.newOrder
          d.key := by
    intro d o n
    rw [Sql.mem_leftJoin_groups (fun r : District × _ => r.1.key) fun _ _ => decide_eq_true_iff,
      Sql.mem_leftJoin_groups District.key fun _ _ => decide_eq_true_iff]
  rw [hjoined, checkNoRows_ok, List.filter_eq_nil_iff]
  constructor
  · intro h d hd
    rw [← hwhere d]
    have hrow := h _ ((hmem d _ _).mpr ⟨⟨hd, rfl⟩, rfl⟩)
    simpa only [groupOf_max, decide_eq_true_eq, orderIds, newOrderIds] using hrow
  · rintro h ⟨⟨d, o⟩, n⟩ hrow
    obtain ⟨⟨hd, rfl⟩, rfl⟩ := (hmem d o n).mp hrow
    simpa only [groupOf_max, decide_eq_true_eq, orderIds, newOrderIds] using (hwhere d).mpr (h d hd)

/-- Checks 3.3.2.2, 3.3.2.8 and 3.3.2.9 pass exactly when their conditions hold, if and only if the
districts without orders and the warehouses and districts without payments satisfy the conditions, or
the check finds a violation of another one. -/
theorem missingGroups_exact_iff (db : Database) :
    ((consistencyCheck3322 db = .ok () ↔ ∀ d, d ∈ db.district → NextOrderOk db d) ↔
      (∀ d, d ∈ db.district → orderIds db.oorder d.key = [] →
          d.dNextOId = 1 ∧ newOrderIds db.newOrder d.key = []) ∨
        ∃ d, d ∈ db.district ∧ orderIds db.oorder d.key ≠ [] ∧ ¬NextOrderOk db d) ∧
    ((consistencyCheck3328 db = .ok () ↔ ∀ w, w ∈ db.warehouse → WarehouseYtdOk db w) ↔
      (∀ w, w ∈ db.warehouse → (¬∃ h ∈ db.history, h.hWId = w.wId) → w.wYtd = 0) ∨
        ∃ w, w ∈ db.warehouse ∧ (∃ h ∈ db.history, h.hWId = w.wId) ∧ ¬WarehouseYtdOk db w) ∧
    ((consistencyCheck3329 db = .ok () ↔ ∀ d, d ∈ db.district → DistrictYtdOk db d) ↔
      (∀ d, d ∈ db.district → (¬∃ h ∈ db.history, h.district = d.key) → d.dYtd = 0) ∨
        ∃ d, d ∈ db.district ∧ (∃ h ∈ db.history, h.district = d.key) ∧ ¬DistrictYtdOk db d) := by
  refine ⟨?_, ?_, ?_⟩
  · rw [consistencyCheck3322_ok, exact_iff]
    refine or_congr_left (forall₂_congr fun d _ => ?_)
    rw [not_not]
    exact forall_congr' nextOrderOk_of_nil
  · rw [consistencyCheck3328_ok, exact_iff]
    refine or_congr_left (forall₂_congr fun w _ => forall_congr' fun hnone => ?_)
    rw [WarehouseYtdOk, total_of_none hnone]
  · rw [consistencyCheck3329_ok, exact_iff]
    refine or_congr_left (forall₂_congr fun d _ => forall_congr' fun hnone => ?_)
    rw [DistrictYtdOk, total_of_none hnone]

/-- A warehouse with its districts, all with payments in their totals and an order behind them, whose
orders and payments are lost. -/
def withoutGroups : Database where
  warehouse := [⟨1, 10, ""⟩]
  district := (List.range' 1 10).map fun d => ⟨1, d, 1, 2, ""⟩
  customer := []
  history := []
  oorder := []
  newOrder := []
  orderLine := []
  item := []
  stock := []

theorem missingGroups_pass_withoutGroups :
    withoutGroups.warehouse.map Warehouse.key = List.range' 1 1 ∧
      withoutGroups.district.map District.key = (List.range' 1 10).map (fun d => (1, d)) ∧
      consistencyCheck3322 withoutGroups = .ok () ∧
      ¬(∀ d, d ∈ withoutGroups.district → NextOrderOk withoutGroups d) ∧
      consistencyCheck3328 withoutGroups = .ok () ∧
      ¬(∀ w, w ∈ withoutGroups.warehouse → WarehouseYtdOk withoutGroups w) ∧
      consistencyCheck3329 withoutGroups = .ok () ∧
      ¬∀ d, d ∈ withoutGroups.district → DistrictYtdOk withoutGroups d := by
  refine ⟨rfl, rfl, rfl, fun h => ?_, rfl, fun h => ?_, rfl, fun h => ?_⟩
  · exact absurd ((nextOrderOk_of_nil rfl).mp (h ⟨1, 1, 1, 2, ""⟩ (by decide))).1 (by decide)
  · exact absurd (h ⟨1, 10, ""⟩ (by decide)) (by rw [WarehouseYtdOk]; decide)
  · exact absurd (h ⟨1, 1, 1, 2, ""⟩ (by decide)) (by rw [DistrictYtdOk]; decide)

end Tpcc.Check
