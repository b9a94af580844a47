import Tpcc.Check.Exact
import Tpcc.Store.Consistency

/-! Checks 3.3.2.4, 3.3.2.5, 3.3.2.6 and 3.3.2.10, which emulate full joins range by range: each fails
exactly when a warehouse violates its condition. -/

namespace Tpcc.Check

open Lib Store Transaction

section Chunk

variable {α κ : Type} [DecidableEq κ] {key : α → κ} {rows : List α} {startWh endWh : Nat}
  {w : α → Nat} {k : κ}

/-- The condition on the warehouse leaves a group of one warehouse as it is. -/
theorem filter_within (hk : ∀ r, key r = k → within startWh endWh (w r) = true) :
    (rows.filter fun r => within startWh endWh (w r)).filter (fun r => key r = k) =
      rows.filter fun r => key r = k := by
  rw [List.filter_filter]
  refine List.filter_congr fun r _ => ?_
  by_cases hr : key r = k
  · simp [hr, hk r hr]
  · simp [hr]

/-- The condition on the warehouse leaves nothing of a group of another range. -/
theorem filter_not_within (hk : ∀ r, key r = k → within startWh endWh (w r) = false) :
    (rows.filter fun r => within startWh endWh (w r)).filter (fun r => key r = k) = [] := by
  rw [List.filter_filter, List.filter_eq_nil_iff]
  intro r _ hr
  simp only [Bool.and_eq_true, decide_eq_true_eq] at hr
  rw [hk r hr.1] at hr
  exact absurd hr.2 (by simp)

end Chunk

variable {db : Database} {warehouseCount : Nat}

/-- In each district of the warehouse, the orders' `O_OL_CNT` sum up to the number of order lines. -/
def LineCountsOk (db : Database) (w : Nat) : Prop :=
  ∀ d, ((db.oorder.filter fun o => o.district = (w, d)).map Oorder.oOlCnt).sum =
    (db.orderLine.filter fun l => l.district = (w, d)).length

/-- An order without carrier; carrier 0 stands for none, too. -/
def Undelivered (o : Oorder) : Prop := o.oCarrierId = none ∨ o.oCarrierId = some 0

/-- The warehouse's new orders are its undelivered orders. -/
def NewOrdersOk (db : Database) (w : Nat) : Prop :=
  (∀ n ∈ db.newOrder, n.noWId = w → ∃ o ∈ db.oorder, o.key = n.key ∧ Undelivered o) ∧
    ∀ o ∈ db.oorder, o.oWId = w → Undelivered o → ∃ n ∈ db.newOrder, n.key = o.key

/-- The warehouse's orders have `O_OL_CNT` lines, and its lines belong to orders. -/
def OrderLinesOk (db : Database) (w : Nat) : Prop :=
  (∀ o ∈ db.oorder, o.oWId = w → o.oOlCnt = (linesOf db.orderLine o.key).length) ∧
    ∀ l ∈ db.orderLine, l.olWId = w → ∃ o ∈ db.oorder, o.key = l.order

/-- The balances of the warehouse's customers are what was delivered less what they paid. -/
def CustomersOk (db : Database) (w : Nat) : Prop :=
  ∀ c ∈ db.customer, c.cWId = w →
    c.cBalance = customerDelivered db c.key - customerPaid db c.key

section LineCounts

variable {startWh endWh : Nat}

/-- `SUM(o_ol_cnt)` of a group. -/
def sumOlCnt (rows : List Oorder) : Int := (rows.map Oorder.oOlCnt).sum

/-- `COUNT(*)` of a group. -/
def olCount (rows : List OrderLine) : Int := rows.length

theorem sumOlCnt_pos (h : ∀ o ∈ db.oorder, 1 ≤ o.oOlCnt) {rows : List Oorder}
    (hrows : ∀ o ∈ rows, o ∈ db.oorder) (hne : rows ≠ []) : 0 < sumOlCnt rows := by
  obtain ⟨o, rest, rfl⟩ := List.exists_cons_of_ne_nil hne
  have hfirst := h o (hrows o List.mem_cons_self)
  rw [sumOlCnt, List.map_cons, List.sum_cons]
  omega

theorem olCount_pos {rows : List OrderLine} (hne : rows ≠ []) : 0 < olCount rows := by
  have hlength := List.length_pos_of_ne_nil hne
  rw [olCount]
  omega

/-- The groups of a range agree when those of its warehouses do. -/
theorem districtGroups_eq (h : ∀ o ∈ db.oorder, 1 ≤ o.oOlCnt) :
    (∀ k, Sql.groupOf Oorder.district sumOlCnt
          (db.oorder.filter fun r => within startWh endWh r.oWId) k =
        Sql.groupOf OrderLine.district olCount
          (db.orderLine.filter fun r => within startWh endWh r.olWId) k) ↔
      ∀ w, within startWh endWh w = true → LineCountsOk db w := by
  rw [Prod.forall]
  refine forall_congr' fun w => ?_
  cases hw : within startWh endWh w with
  | false =>
    refine iff_of_true (fun d => ?_) (by simp)
    rw [Sql.groupOf_eq_none, Sql.groupOf_eq_none]
    · exact filter_not_within fun r hr => by rwa [show r.olWId = w from congrArg Prod.fst hr]
    · exact filter_not_within fun r hr => by rwa [show r.oWId = w from congrArg Prod.fst hr]
  | true =>
    rw [LineCountsOk, forall_prop_of_true rfl]
    refine forall_congr' fun d => ?_
    have horders : (db.oorder.filter fun r => within startWh endWh r.oWId).filter
        (fun r => r.district = (w, d)) = db.oorder.filter fun r => r.district = (w, d) :=
      filter_within fun r hr => by rwa [show r.oWId = w from congrArg Prod.fst hr]
    have hlines : (db.orderLine.filter fun r => within startWh endWh r.olWId).filter
        (fun r => r.district = (w, d)) = db.orderLine.filter fun r => r.district = (w, d) :=
      filter_within fun r hr => by rwa [show r.olWId = w from congrArg Prod.fst hr]
    have hnil : sumOlCnt [] = olCount [] := rfl
    rw [Sql.groupOf_eq_groupOf hnil, horders, hlines, sumOlCnt, olCount, Int.ofNat_inj]
    · rw [horders]
      exact fun hne => Int.ne_of_gt (sumOlCnt_pos h (fun o ho => List.mem_of_mem_filter ho) hne)
    · rw [hlines]
      exact fun hne => Int.ne_of_gt (olCount_pos hne)

theorem consistencyCheck3324_ok (h : ∀ o ∈ db.oorder, 1 ≤ o.oOlCnt) :
    consistencyCheck3324 db warehouseCount = .ok () ↔
      ∀ w, Checked warehouseCount w → LineCountsOk db w := by
  refine checkRanges_iff (by decide) fun startWh endWh => ?_
  rw [← districtGroups_eq h, ← Sql.fullJoin_iff (-1)]
  · change ((Sql.leftJoin (fun o ol => o.1 = ol.1)
        (Sql.groups Oorder.district sumOlCnt
          (db.oorder.filter fun r => within startWh endWh r.oWId))
        (Sql.groups OrderLine.district olCount
          (db.orderLine.filter fun r => within startWh endWh r.olWId))).filter
          fun r => r.1.2 ≠ (r.2.map Prod.snd).getD (-1)).map (fun r => r.1.1) ++
      ((Sql.leftJoin (fun ol o => o.1 = ol.1)
        (Sql.groups OrderLine.district olCount
          (db.orderLine.filter fun r => within startWh endWh r.olWId))
        (Sql.groups Oorder.district sumOlCnt
          (db.oorder.filter fun r => within startWh endWh r.oWId))).filter
          fun r => r.2.isNone).map (fun r => r.1.1) = [] ↔ _
    rw [List.append_eq_nil_iff, List.map_eq_nil_iff, List.map_eq_nil_iff, List.filter_eq_nil_iff,
      List.filter_eq_nil_iff, Prod.forall, Prod.forall]
    simp only [Sql.mem_leftJoin_groups Prod.fst fun _ _ => decide_eq_true_iff,
      Sql.mem_leftJoin_groups Prod.fst fun _ _ => decide_eq_true_iff.trans eq_comm]
    simp
  · intro group
    rw [sumOlCnt]
    omega

end LineCounts

section Queries

variable {startWh endWh : Nat}

/-- The row of a new order shows whether it has an undelivered order. -/
theorem newOrder_row (hkeys : (db.oorder.map Oorder.key).Nodup) {n : NewOrder}
    (hn : n ∈ db.newOrder) :
    (∀ o, (n, o) ∈ Sql.leftJoin (fun no o => decide (no.key = o.key)) db.newOrder db.oorder →
        ¬(o.isNone || o.any fun r => r.oCarrierId.any fun carrier => carrier ≠ 0) = true) ↔
      ∃ o ∈ db.oorder, o.key = n.key ∧ Undelivered o := by
  constructor
  · intro h
    obtain ⟨partner, hrow⟩ := Sql.exists_mem_leftJoin
      (fun (no : NewOrder) o => decide (no.key = o.key)) db.oorder hn
    have hwhere := h partner hrow
    cases partner with
    | none => simp at hwhere
    | some o =>
      obtain ⟨-, ho, hkey⟩ := Sql.mem_leftJoin.mp hrow
      refine ⟨o, ho, (of_decide_eq_true hkey).symm, ?_⟩
      cases hcarrier : o.oCarrierId with
      | none => exact .inl hcarrier
      | some carrier =>
        simp [hcarrier] at hwhere
        exact .inr (by rw [hcarrier, hwhere])
  · rintro ⟨o, ho, hkey, hcarrier⟩ partner hrow
    cases partner with
    | none =>
      have hnone := (Sql.mem_leftJoin.mp hrow).2 o ho
      simp [hkey] at hnone
    | some o' =>
      obtain ⟨-, ho', hkey'⟩ := Sql.mem_leftJoin.mp hrow
      have hsame : o = o' :=
        List.inj_on_of_nodup_map hkeys ho ho' (hkey.trans (of_decide_eq_true hkey'))
      subst hsame
      rcases hcarrier with hcarrier | hcarrier
      · simp [hcarrier]
      · simp [hcarrier]

theorem consistencyCheck3325_ok (hkeys : (db.oorder.map Oorder.key).Nodup) :
    consistencyCheck3325 db warehouseCount = .ok () ↔
      ∀ w, Checked warehouseCount w → NewOrdersOk db w := by
  refine checkRanges_iff (by decide) fun startWh endWh => ?_
  rw [List.append_eq_nil_iff, List.map_eq_nil_iff, List.map_eq_nil_iff]
  have hnew : ((Sql.leftJoin (fun no o => decide (no.key = o.key)) db.newOrder db.oorder).filter
      fun r => within startWh endWh r.1.noWId &&
        (r.2.isNone || r.2.any fun o => o.oCarrierId.any fun carrier => carrier ≠ 0)) = [] ↔
      ∀ n ∈ db.newOrder, within startWh endWh n.noWId = true →
        ∃ o ∈ db.oorder, o.key = n.key ∧ Undelivered o := by
    rw [List.filter_eq_nil_iff]
    constructor
    · intro h n hn hw
      refine (newOrder_row hkeys hn).mp fun o hrow hwhere => h (n, o) hrow ?_
      simpa only [hw, Bool.true_and] using hwhere
    · rintro h ⟨n, o⟩ hrow hwhere
      have hn := (Sql.mem_leftJoin.mp hrow).1
      obtain ⟨hw, hwhere⟩ := Bool.and_eq_true_iff.mp hwhere
      exact (newOrder_row hkeys hn).mpr (h n hn hw) o hrow hwhere
  have hold : ((Sql.leftJoin (fun o no => decide (o.key = no.key)) db.oorder db.newOrder).filter
      fun r => (within startWh endWh r.1.oWId &&
        (r.1.oCarrierId.isNone || r.1.oCarrierId = some 0)) && r.2.isNone) = [] ↔
      ∀ o ∈ db.oorder, within startWh endWh o.oWId = true → Undelivered o →
        ∃ n ∈ db.newOrder, n.key = o.key := by
    refine (Sql.antiJoin_eq_nil fun o : Oorder => within startWh endWh o.oWId &&
      (o.oCarrierId.isNone || o.oCarrierId = some 0)).trans (forall₂_congr fun o _ => ?_)
    simp only [Bool.and_eq_true, Bool.or_eq_true, Option.isNone_iff_eq_none, decide_eq_true_eq,
      and_imp, Undelivered, eq_comm (a := o.key)]
  refine (and_congr hnew hold).trans ?_
  constructor
  · rintro ⟨hnew, hold⟩ w hw
    exact ⟨fun n hn hnw => hnew n hn (hnw ▸ hw), fun o ho how => hold o ho (how ▸ hw)⟩
  · intro h
    exact ⟨fun n hn hw => (h _ hw).1 n hn rfl, fun o ho hw => (h _ hw).2 o ho rfl⟩

theorem consistencyCheck3326_ok :
    consistencyCheck3326 db warehouseCount = .ok () ↔
      ∀ w, Checked warehouseCount w → OrderLinesOk db w := by
  refine checkRanges_iff (by decide) fun startWh endWh => ?_
  rw [List.append_eq_nil_iff, List.map_eq_nil_iff, List.map_eq_nil_iff]
  have horders : ((Sql.leftJoin (fun o l => decide (o.key = l.1)) db.oorder
      (Sql.groups OrderLine.order List.length
        (db.orderLine.filter fun r => within startWh endWh r.olWId))).filter
      fun r => within startWh endWh r.1.oWId && r.1.oOlCnt ≠ (r.2.map Prod.snd).getD 0) = [] ↔
      ∀ o ∈ db.oorder, within startWh endWh o.oWId = true →
        o.oOlCnt = (linesOf db.orderLine o.key).length := by
    rw [List.filter_eq_nil_iff, Prod.forall]
    simp only [Sql.mem_leftJoin_groups Oorder.key fun _ _ => decide_eq_true_iff]
    have hcount : ∀ o : Oorder, within startWh endWh o.oWId = true →
        ((Sql.groupOf OrderLine.order List.length
          (db.orderLine.filter fun r => within startWh endWh r.olWId) o.key).map Prod.snd).getD 0 =
        (linesOf db.orderLine o.key).length := by
      intro o ho
      refine Sql.groupOf_getD.trans (congrArg List.length (filter_within fun r hr => ?_))
      rwa [show r.olWId = o.oWId from congrArg Prod.fst hr]
    constructor
    · intro h o ho hw
      have hwhere := h o _ ⟨ho, rfl⟩
      rw [hcount o hw] at hwhere
      simpa [hw] using hwhere
    · rintro h o _ ⟨ho, rfl⟩ hwhere
      obtain ⟨hw, hdiffers⟩ := Bool.and_eq_true_iff.mp hwhere
      rw [hcount o hw] at hdiffers
      exact of_decide_eq_true hdiffers (h o ho hw)
  have hlines : ((Sql.leftJoin (fun l o => decide (l = o.key))
      ((db.orderLine.filter fun r => within startWh endWh r.olWId).map OrderLine.order).dedup
      db.oorder).filter fun r => true && r.2.isNone) = [] ↔
      ∀ l ∈ db.orderLine, within startWh endWh l.olWId = true →
        ∃ o ∈ db.oorder, o.key = l.order := by
    refine (Sql.antiJoin_eq_nil fun _ => true).trans ?_
    simp only [List.mem_dedup, List.mem_map, List.mem_filter, decide_eq_true_eq, forall_const]
    constructor
    · intro h l hl hw
      obtain ⟨o, ho, hkey⟩ := h l.order ⟨l, ⟨hl, hw⟩, rfl⟩
      exact ⟨o, ho, hkey.symm⟩
    · rintro h _ ⟨l, ⟨hl, hw⟩, rfl⟩
      obtain ⟨o, ho, hkey⟩ := h l hl hw
      exact ⟨o, ho, hkey.symm⟩
  refine (and_congr horders hlines).trans ?_
  constructor
  · rintro ⟨horders, hlines⟩ w hw
    exact ⟨fun o ho how => horders o ho (how ▸ hw), fun l hl hlw => hlines l hl (hlw ▸ hw)⟩
  · intro h
    exact ⟨fun o ho hw => (h _ hw).1 o ho rfl, fun l hl hw => (h _ hw).2 l hl rfl⟩

/-- What the first left join of check 3.3.2.10 adds to a customer of the range. -/
theorem delivered_of_leftJoin {c : Customer} {l : Option ((Nat × Nat × Nat) × Money)}
    (hw : within startWh endWh c.cWId = true)
    (hrow : (c, l) ∈ Sql.leftJoin (fun c l => decide (c.key = l.1)) db.customer
      (deliveredSums db startWh endWh)) :
    (l.map Prod.snd).getD 0 = customerDelivered db c.key := by
  have hsums : deliveredSums db startWh endWh =
      Sql.groups (fun r : Oorder × OrderLine => (r.1.oWId, r.1.oDId, r.1.oCId))
        (fun rows => (rows.map fun r => r.2.olAmount).sum)
        ((Sql.join (fun o ol => decide (ol.order = o.key)) db.oorder db.orderLine).filter
          fun r => r.2.olDeliveryD.isSome && within startWh endWh r.1.oWId) := rfl
  rw [hsums, Sql.mem_leftJoin_groups Customer.key fun _ _ => decide_eq_true_iff] at hrow
  obtain ⟨-, rfl⟩ := hrow
  exact Sql.groupOf_getD.trans (sum_deliveredRows hw)

/-- What the second left join of check 3.3.2.10 adds to a customer of the range. -/
theorem paid_of_groupOf {c : Customer} (hw : within startWh endWh c.cWId = true) :
    ((Sql.groupOf History.customer (fun rows => (rows.map History.hAmount).sum)
      (db.history.filter fun r => within startWh endWh r.hCWId) c.key).map Prod.snd).getD 0 =
      customerPaid db c.key := by
  refine Sql.groupOf_getD.trans ?_
  rw [filter_within fun r hr => by rwa [show r.hCWId = c.cWId from congrArg Prod.fst hr]]
  rfl

theorem consistencyCheck33210_ok :
    consistencyCheck33210 db warehouseCount = .ok () ↔
      ∀ w, Checked warehouseCount w → CustomersOk db w := by
  refine checkRanges_iff (by decide) fun startWh endWh => ?_
  change ((Sql.leftJoin (fun (r : Customer × _) h => decide (r.1.key = h.1))
      (Sql.leftJoin (fun c l => decide (c.key = l.1)) db.customer (deliveredSums db startWh endWh))
      (Sql.groups History.customer (fun rows => (rows.map History.hAmount).sum)
        (db.history.filter fun r => within startWh endWh r.hCWId))).filter
      fun r => within startWh endWh r.1.1.cWId &&
        differs r.1.1.cBalance ((r.1.2.map Prod.snd).getD 0 - (r.2.map Prod.snd).getD 0)) = [] ↔ _
  rw [List.filter_eq_nil_iff, Prod.forall]
  simp only [Sql.mem_leftJoin_groups (fun r : Customer × _ => r.1.key)
    fun _ _ => decide_eq_true_iff]
  constructor
  · intro h w hw c hc hcw
    have hin : within startWh endWh c.cWId = true := by rwa [hcw]
    obtain ⟨l, hl⟩ := Sql.exists_mem_leftJoin (fun (c : Customer) l => decide (c.key = l.1))
      (deliveredSums db startWh endWh) hc
    have hwhere := h (c, l) _ ⟨hl, rfl⟩
    rw [delivered_of_leftJoin hin hl, paid_of_groupOf hin] at hwhere
    simpa [hin, differs_eq_true] using hwhere
  · rintro h ⟨c, l⟩ _ ⟨hl, rfl⟩ hwhere
    obtain ⟨hin, hdiffers⟩ := Bool.and_eq_true_iff.mp hwhere
    rw [delivered_of_leftJoin hin hl, paid_of_groupOf hin] at hdiffers
    exact differs_eq_true.mp hdiffers (h c.cWId hin c (Sql.mem_leftJoin.mp hl).1 rfl)

end Queries

theorem error_iff {outcome : Outcome} :
    (∃ message, outcome = .error message) ↔ ¬outcome = .ok () := by
  cases outcome with
  | ok u => simp
  | error message => simp

/-- The checks that emulate full joins fail if and only if one of the warehouses violates their
condition; the ranges they go through hold each warehouse once, and no bound of a range exceeds an
`int`. -/
theorem fullJoinChecks_fail_iff (db : Database) (warehouseCount : Nat)
    (hcount : warehouseCount < 2 ^ 31 - 50) (hkeys : (db.oorder.map Oorder.key).Nodup)
    (holCnt : ∀ o ∈ db.oorder, 1 ≤ o.oOlCnt) :
    ((∃ message, consistencyCheck3324 db warehouseCount = .error message) ↔
      ∃ w, (1 ≤ w ∧ w ≤ warehouseCount) ∧ ¬LineCountsOk db w) ∧
    ((∃ message, consistencyCheck3325 db warehouseCount = .error message) ↔
      ∃ w, (1 ≤ w ∧ w ≤ warehouseCount) ∧ ¬NewOrdersOk db w) ∧
    ((∃ message, consistencyCheck3326 db warehouseCount = .error message) ↔
      ∃ w, (1 ≤ w ∧ w ≤ warehouseCount) ∧ ¬OrderLinesOk db w) ∧
    ((∃ message, consistencyCheck33210 db warehouseCount = .error message) ↔
      ∃ w, (1 ≤ w ∧ w ≤ warehouseCount) ∧ ¬CustomersOk db w) ∧
    ∀ kRangeSize, kRangeSize = 50 ∨ kRangeSize = 10 →
      (ranges kRangeSize warehouseCount).flatMap (fun r => List.range' r.1 (r.2 + 1 - r.1)) =
          List.range' 1 warehouseCount ∧
        ∀ r ∈ ranges kRangeSize warehouseCount, r.1 + kRangeSize < 2 ^ 31 := by
  have hfails : ∀ {outcome : Outcome} {P : Nat → Prop},
      (outcome = .ok () ↔ ∀ w, Checked warehouseCount w → P w) →
      ((∃ message, outcome = .error message) ↔
        ∃ w, (1 ≤ w ∧ w ≤ warehouseCount) ∧ ¬P w) := by
    intro outcome P h
    rw [error_iff, h]
    simp only [not_forall, exists_prop]
    rfl
  refine ⟨hfails (consistencyCheck3324_ok holCnt), hfails (consistencyCheck3325_ok hkeys),
    hfails consistencyCheck3326_ok, hfails consistencyCheck33210_ok, fun kRangeSize hsize => ?_⟩
  have hpos : 0 < kRangeSize := by omega
  refine ⟨flatMap_ranges hpos, ?_⟩
  rintro ⟨startWh, endWh⟩ hr
  have hbounds := mem_rangesFrom hr
  dsimp only
  omega

theorem fullJoinChecks_fail_partlyDelivered :
    1 < 2 ^ 31 - 50 ∧ (partlyDelivered.oorder.map Oorder.key).Nodup ∧
      (∀ o ∈ partlyDelivered.oorder, 1 ≤ o.oOlCnt) ∧
      ∃ w, (1 ≤ w ∧ w ≤ 1) ∧ ¬NewOrdersOk partlyDelivered w :=
  ⟨by decide, by decide, by decide,
    (fullJoinChecks_fail_iff partlyDelivered 1 (by decide) (by decide) (by decide)).2.1.mp
      ⟨_, rfl⟩⟩

end Tpcc.Check
