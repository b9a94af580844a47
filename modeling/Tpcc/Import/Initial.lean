import Tpcc.Import.Generate
import Tpcc.Store.Consistency

/-! The tables after an import satisfy the invariant of the transactions. -/

namespace Tpcc.Import

open Lib Store Transaction Check

section Grid

theorem mem_districts {d : Nat} : d ∈ districts ↔ 1 ≤ d ∧ d ≤ 10 := by
  simp only [districts, districtLowId, districtHighId, List.mem_range'_1]
  omega

theorem mem_grid {warehouseCount w d : Nat} :
    (w, d) ∈ grid warehouseCount ↔ (1 ≤ w ∧ w ≤ warehouseCount) ∧ 1 ≤ d ∧ d ≤ 10 := by
  simp only [grid, List.mem_flatMap, List.mem_map, Prod.mk.injEq, List.mem_range'_1]
  constructor
  · rintro ⟨w', hw', d', hd', rfl, rfl⟩
    exact ⟨by omega, mem_districts.1 hd'⟩
  · rintro ⟨hw, hd⟩
    exact ⟨w, by omega, d, mem_districts.2 hd, rfl, rfl⟩

theorem grid_nodup (warehouseCount : Nat) : (grid warehouseCount).Nodup := by
  have hblocks := @Table.nodup_blocks (Nat × Nat) Nat (fun wh => districts.map fun d => (wh, d))
    Prod.fst (List.range' 1 warehouseCount) _ id List.nodup_range'
    (fun wh p hp => by
      obtain ⟨d, -, rfl⟩ := List.mem_map.1 hp
      rfl)
    (fun p p' heq => congrArg Prod.fst heq)
    (fun wh _ => by
      rw [List.map_id]
      exact List.Nodup.map (fun _ _ heq => (Prod.mk.inj heq).2) List.nodup_range')
  rwa [List.map_id] at hblocks

end Grid

variable {draws : ImportDraws} {warehouseCount : Nat}

section Blocks

theorem mem_loadHistory {w d : Nat} {r : History} (hr : r ∈ loadHistory draws w d) :
    r.district = (w, d) := by
  obtain ⟨c, -, rfl⟩ := List.mem_map.1 hr
  rfl

theorem mem_loadOorders {w d : Nat} {r : Oorder} (hr : r ∈ loadOorders draws w d) :
    r.district = (w, d) := by
  obtain ⟨c, -, rfl⟩ := List.mem_map.1 hr
  rfl

theorem mem_loadNewOrders {w d : Nat} {r : NewOrder} (hr : r ∈ loadNewOrders w d) :
    r.district = (w, d) := by
  obtain ⟨c, -, rfl⟩ := List.mem_map.1 hr
  rfl

theorem mem_loadLines {w d o : Nat} {r : OrderLine} (hr : r ∈ loadLines draws w d o) :
    r.order = (w, d, o) := by
  obtain ⟨c, -, rfl⟩ := List.mem_map.1 hr
  rfl

theorem mem_loadStock {w : Nat} {r : Stock} (hr : r ∈ loadStock draws w) : r.sWId = w := by
  obtain ⟨c, -, rfl⟩ := List.mem_map.1 hr
  rfl

/-- The keys of the orders. -/
def orderGrid (warehouseCount : Nat) : List (Nat × Nat × Nat) :=
  (grid warehouseCount).flatMap fun p =>
    (List.range' 1 customersPerDistrict).map fun i => (p.1, p.2, i)

theorem orderGrid_nodup (warehouseCount : Nat) : (orderGrid warehouseCount).Nodup := by
  have hblocks := @Table.nodup_blocks (Nat × Nat × Nat) (Nat × Nat)
    (fun p => (List.range' 1 customersPerDistrict).map fun i => (p.1, p.2, i))
    (fun k => (k.1, k.2.1)) (grid warehouseCount) _ id (grid_nodup warehouseCount)
    (fun p k hk => by
      obtain ⟨i, -, rfl⟩ := List.mem_map.1 hk
      rfl)
    (fun k k' heq => congrArg (fun k : Nat × Nat × Nat => (k.1, k.2.1)) heq)
    (fun p _ => by
      rw [List.map_id]
      exact List.Nodup.map (fun _ _ heq => (Prod.mk.inj (Prod.mk.inj heq).2).2) List.nodup_range')
  rwa [List.map_id] at hblocks

theorem mem_orderGrid {w d i : Nat} :
    (w, d, i) ∈ orderGrid warehouseCount ↔
      (w, d) ∈ grid warehouseCount ∧ 1 ≤ i ∧ i ≤ customersPerDistrict := by
  simp only [orderGrid, List.mem_flatMap, List.mem_map, Prod.mk.injEq, List.mem_range'_1]
  constructor
  · rintro ⟨p, hp, i', hi', rfl, rfl, rfl⟩
    exact ⟨hp, by omega⟩
  · rintro ⟨hp, hi⟩
    exact ⟨(w, d), hp, i, by omega, rfl, rfl, rfl⟩

theorem map_key_district (draws : ImportDraws) :
    (importTables draws warehouseCount).district.map District.key = grid warehouseCount := by
  simp only [importTables, loadDistricts, grid, List.map_flatMap, List.map_map,
    Nat.add_sub_cancel_right]
  rfl

theorem map_key_customer (draws : ImportDraws) :
    (importTables draws warehouseCount).customer.map Customer.key = orderGrid warehouseCount := by
  simp only [importTables, loadCustomers, orderGrid, List.map_flatMap, List.map_map]
  rfl

theorem map_customer_history (draws : ImportDraws) :
    (importTables draws warehouseCount).history.map History.customer =
      orderGrid warehouseCount := by
  simp only [importTables, loadHistory, orderGrid, List.map_flatMap, List.map_map]
  rfl

theorem map_key_oorder (draws : ImportDraws) :
    (importTables draws warehouseCount).oorder.map Oorder.key = orderGrid warehouseCount := by
  simp only [importTables, loadOorders, orderGrid, List.map_flatMap, List.map_map]
  rfl

theorem orderLine_eq :
    (importTables draws warehouseCount).orderLine =
      (orderGrid warehouseCount).flatMap fun k => loadLines draws k.1 k.2.1 k.2.2 := by
  simp only [importTables, loadOrderLines, orderGrid, List.flatMap_assoc, List.flatMap_map]

/-- The lines of an order. -/
theorem linesOf_import {k : Nat × Nat × Nat} (hk : k ∈ orderGrid warehouseCount) :
    linesOf (importTables draws warehouseCount).orderLine k = loadLines draws k.1 k.2.1 k.2.2 := by
  rw [orderLine_eq, linesOf, Table.filter_flatMap (orderGrid_nodup warehouseCount)
    fun k r hr => mem_loadLines hr, if_pos hk]

end Blocks

section Keyed

theorem nodup_newOrder : ((importTables draws warehouseCount).newOrder.map NewOrder.key).Nodup := by
  refine @Table.nodup_blocks NewOrder (Nat × Nat) (fun p => loadNewOrders p.1 p.2)
    NewOrder.district (grid warehouseCount) _ NewOrder.key (grid_nodup warehouseCount)
    (fun p r hr => mem_loadNewOrders hr) (fun r r' heq => ?_) fun p _ => ?_
  · simp only [NewOrder.key, Prod.mk.injEq] at heq
    simp [NewOrder.district, heq]
  · rw [loadNewOrders, List.map_map]
    exact List.Nodup.map (fun _ _ heq => (Prod.mk.inj (Prod.mk.inj heq).2).2) List.nodup_range'

theorem nodup_orderLine :
    ((importTables draws warehouseCount).orderLine.map OrderLine.key).Nodup := by
  rw [orderLine_eq]
  refine @Table.nodup_blocks OrderLine (Nat × Nat × Nat)
    (fun k => loadLines draws k.1 k.2.1 k.2.2) OrderLine.order (orderGrid warehouseCount) _
    OrderLine.key (orderGrid_nodup warehouseCount) (fun k r hr => mem_loadLines hr)
    (fun r r' heq => ?_) fun k _ => ?_
  · simp only [OrderLine.key, Prod.mk.injEq] at heq
    simp [OrderLine.order, heq]
  · rw [loadLines, List.map_map]
    exact List.Nodup.map
      (fun _ _ heq => (Prod.mk.inj (Prod.mk.inj (Prod.mk.inj heq).2).2).2) List.nodup_range'

theorem nodup_stock : ((importTables draws warehouseCount).stock.map Stock.key).Nodup := by
  refine @Table.nodup_blocks Stock Nat (loadStock draws) Stock.sWId (List.range' 1 warehouseCount) _
    Stock.key List.nodup_range' (fun w r hr => mem_loadStock hr)
    (fun r r' heq => (Prod.mk.inj heq).1) fun w _ => ?_
  rw [loadStock, List.map_map]
  exact List.Nodup.map (fun _ _ heq => Int.ofNat.inj (Prod.mk.inj heq).2) List.nodup_range'

theorem importTables_keyed : Keyed (importTables draws warehouseCount) where
  warehouse := by
    simp only [importTables, loadWarehouses, List.map_map]
    exact List.Nodup.map (fun _ _ heq => heq) List.nodup_range'
  district := by
    rw [map_key_district]
    exact grid_nodup warehouseCount
  customer := by
    rw [map_key_customer]
    exact orderGrid_nodup warehouseCount
  oorder := by
    rw [map_key_oorder]
    exact orderGrid_nodup warehouseCount
  newOrder := nodup_newOrder
  orderLine := nodup_orderLine
  item := by
    simp only [importTables, loadItems, List.map_map]
    exact List.Nodup.map (fun _ _ heq => Int.ofNat.inj heq) List.nodup_range'
  stock := nodup_stock

end Keyed

section Orders

theorem mem_next {p : (Nat × Nat) × Nat}
    (hp : p ∈ (importTables draws warehouseCount).district.map District.next) :
    p.1 ∈ grid warehouseCount ∧ p.2 = customersPerDistrict + 1 := by
  obtain ⟨r, hr, rfl⟩ := List.mem_map.1 hp
  refine ⟨?_, ?_⟩
  · rw [← map_key_district draws]
    exact List.mem_map_of_mem hr
  · obtain ⟨w, -, hr⟩ := List.mem_flatMap.1 hr
    obtain ⟨d, -, rfl⟩ := List.mem_map.1 hr
    rfl

theorem filter_oorder_import {p : Nat × Nat} (hp : p ∈ grid warehouseCount) :
    (importTables draws warehouseCount).oorder.filter (fun r => r.district = p) =
      loadOorders draws p.1 p.2 := by
  refine (Table.filter_flatMap (grid_nodup warehouseCount)
    (fun p r hr => mem_loadOorders hr) p).trans ?_
  rw [if_pos hp]

theorem orderIds_import {p : Nat × Nat} (hp : p ∈ grid warehouseCount) :
    orderIds (importTables draws warehouseCount).oorder p = List.range' 1 customersPerDistrict := by
  rw [orderIds, filter_oorder_import hp, loadOorders, List.map_map]
  exact List.map_id _

theorem newOrderIds_import {p : Nat × Nat} (hp : p ∈ grid warehouseCount) :
    newOrderIds (importTables draws warehouseCount).newOrder p =
      List.range' firstUnprocessedOId (customersPerDistrict + 1 - firstUnprocessedOId) := by
  have hfilter : (importTables draws warehouseCount).newOrder.filter (fun r => r.district = p) =
      loadNewOrders p.1 p.2 := by
    refine (Table.filter_flatMap (grid_nodup warehouseCount)
      (fun p r hr => mem_loadNewOrders hr) p).trans ?_
    rw [if_pos hp]
  rw [newOrderIds, hfilter, loadNewOrders, List.map_map]
  exact List.map_id _

/-- The new orders of the import. -/
theorem mem_key_newOrder {w d i : Nat} :
    (∃ n ∈ (importTables draws warehouseCount).newOrder, n.key = (w, d, i)) ↔
      (w, d) ∈ grid warehouseCount ∧ firstUnprocessedOId ≤ i ∧ i ≤ customersPerDistrict := by
  simp only [importTables, loadNewOrders, List.mem_flatMap, List.mem_map, List.mem_range'_1]
  constructor
  · rintro ⟨n, ⟨p, hp, o, ho, rfl⟩, hkey⟩
    simp only [NewOrder.key, Prod.mk.injEq] at hkey
    obtain ⟨rfl, rfl, rfl⟩ := hkey
    exact ⟨hp, by omega⟩
  · rintro ⟨hp, hi⟩
    exact ⟨⟨w, d, i⟩, ⟨(w, d), hp, i, by omega, rfl⟩, rfl⟩

/-- An order of the import. -/
theorem mem_oorder {o : Oorder} (ho : o ∈ (importTables draws warehouseCount).oorder) :
    o.key ∈ orderGrid warehouseCount ∧
      (o.oCarrierId = none ↔ firstUnprocessedOId ≤ o.oId) ∧
      o.oOlCnt = getRandomCount draws o.oWId o.oId o.oDId := by
  refine ⟨?_, ?_⟩
  · rw [← map_key_oorder draws]
    exact List.mem_map_of_mem ho
  · obtain ⟨p, -, ho⟩ := List.mem_flatMap.1 ho
    obtain ⟨oid, -, rfl⟩ := List.mem_map.1 ho
    refine ⟨?_, rfl⟩
    dsimp only
    split
    · next hlt => exact ⟨nofun, fun hle => absurd hlt (Nat.not_lt.2 hle)⟩
    · next hlt => exact ⟨fun _ => Nat.not_lt.1 hlt, fun _ => rfl⟩

/-- An order line of the import. -/
theorem mem_orderLine {l : OrderLine} (hl : l ∈ (importTables draws warehouseCount).orderLine) :
    l.order ∈ orderGrid warehouseCount ∧
      (l.olDeliveryD = none ↔ firstUnprocessedOId ≤ l.olOId) ∧
      (l.olDeliveryD ≠ none → l.olAmount = 0) := by
  rw [orderLine_eq] at hl
  obtain ⟨k, hk, hl⟩ := List.mem_flatMap.1 hl
  refine ⟨by rwa [mem_loadLines hl], ?_⟩
  obtain ⟨n, -, rfl⟩ := List.mem_map.1 hl
  dsimp only
  by_cases hlt : k.2.2 < firstUnprocessedOId
  · rw [if_pos hlt, if_pos hlt]
    exact ⟨⟨nofun, fun hle => absurd hlt (Nat.not_lt.2 hle)⟩, fun _ => rfl⟩
  · rw [if_neg hlt, if_neg hlt]
    exact ⟨⟨fun _ => Nat.not_lt.1 hlt, fun _ => rfl⟩, fun hne => absurd rfl hne⟩

theorem importTables_ordersOk :
    OrdersOk ((importTables draws warehouseCount).district.map District.next)
      (importTables draws warehouseCount).oorder (importTables draws warehouseCount).newOrder
      (importTables draws warehouseCount).orderLine := by
  refine ⟨?_, importTables_keyed.oorder, fun p hp => ?_, fun p hp => ?_, fun n hn => ?_,
    fun o ho => ?_, fun o ho l hl hline => ?_, fun l hl => ?_, fun o ho => ?_⟩
  · rw [List.map_map]
    exact importTables_keyed.district
  · obtain ⟨hgrid, hnext⟩ := mem_next hp
    rw [hnext]
    exact ⟨by decide, orderIds_import hgrid⟩
  · obtain ⟨hgrid, hnext⟩ := mem_next hp
    rw [hnext]
    exact ⟨firstUnprocessedOId, by decide, by decide, newOrderIds_import hgrid⟩
  · have hkey := (@mem_key_newOrder draws _ _ _ _).1 ⟨n, hn, rfl⟩
    rw [List.map_map]
    exact map_key_district draws ▸ hkey.1
  · obtain ⟨hgrid, hcarrier, -⟩ := mem_oorder ho
    obtain ⟨hp, hi⟩ := mem_orderGrid.1 hgrid
    rw [hcarrier]
    exact (mem_key_newOrder.trans ⟨fun h => h.2.1, fun h => ⟨hp, h, hi.2⟩⟩).symm
  · obtain ⟨-, hcarrier, -⟩ := mem_oorder ho
    obtain ⟨-, hdelivery, -⟩ := mem_orderLine hl
    rw [hdelivery, hcarrier]
    simp only [OrderLine.order, Oorder.key, Prod.mk.injEq] at hline
    rw [hline.2.2]
  · obtain ⟨hgrid, -⟩ := mem_orderLine hl
    rw [← map_key_oorder draws] at hgrid
    exact List.mem_map.1 hgrid
  · obtain ⟨hgrid, -, hcnt⟩ := mem_oorder ho
    rw [linesOf_import hgrid, hcnt, loadLines, List.length_map, List.length_range']
    exact ⟨rfl, Nat.le_trans (by decide)
      (draws.randomCount (hashCustomer o.oWId o.oDId o.oId)).property.1⟩

end Orders

section Money

theorem mem_warehouseYtd {p : Nat × Money}
    (hp : p ∈ (importTables draws warehouseCount).warehouse.map Warehouse.ytd) :
    p.1 ∈ List.range' 1 warehouseCount ∧ p.2 = districtInitialYtd * districtCount := by
  simp only [importTables, loadWarehouses, List.map_map, Nat.add_sub_cancel_right] at hp
  obtain ⟨w, hw, rfl⟩ := List.mem_map.1 hp
  exact ⟨hw, rfl⟩

theorem mem_districtYtd {p : (Nat × Nat) × Money}
    (hp : p ∈ (importTables draws warehouseCount).district.map District.ytd) :
    p.1 ∈ grid warehouseCount ∧ p.2 = districtInitialYtd := by
  obtain ⟨r, hr, rfl⟩ := List.mem_map.1 hp
  refine ⟨?_, ?_⟩
  · rw [← map_key_district draws]
    exact List.mem_map_of_mem hr
  · obtain ⟨w, -, hr⟩ := List.mem_flatMap.1 hr
    obtain ⟨d, -, rfl⟩ := List.mem_map.1 hr
    rfl

/-- The sum of a column that is constant. -/
theorem sum_map_const {α : Type} {l : List α} {g : α → Int} {c : Int}
    (h : ∀ r ∈ l, g r = c) : (l.map g).sum = l.length * c := by
  rw [List.map_congr_left h, List.map_const', List.sum_replicate, Int.nsmul_eq_mul]

theorem sum_loadHistory (w d : Nat) :
    ((loadHistory draws w d).map History.hAmount).sum = districtInitialYtd := by
  rw [sum_map_const (c := 1000)]
  · rw [loadHistory, List.length_map, List.length_range']
    decide
  · intro r hr
    obtain ⟨c, -, rfl⟩ := List.mem_map.1 hr
    rfl

theorem history_eq :
    (importTables draws warehouseCount).history =
      (List.range' 1 warehouseCount).flatMap fun w => districts.flatMap (loadHistory draws w) := by
  simp only [importTables, grid, List.flatMap_assoc, List.flatMap_map]

theorem importTables_moneyOk :
    MoneyOk ((importTables draws warehouseCount).warehouse.map Warehouse.ytd)
      ((importTables draws warehouseCount).district.map District.ytd)
      (importTables draws warehouseCount).history := by
  have hten : districts.length = districtCount := by decide
  refine ⟨?_, fun p hp => ?_, fun p hp => ?_, fun p hp => ?_⟩
  · rw [List.map_map]
    exact importTables_keyed.district
  · obtain ⟨hw, hytd⟩ := mem_warehouseYtd hp
    have hfilter : ((importTables draws warehouseCount).district.filter fun r => r.dWId = p.1) =
        districts.map fun d => ⟨p.1, d, districtInitialYtd, customersPerDistrict + 1,
          draws.districtName p.1 d⟩ := by
      simp only [importTables, loadDistricts, Nat.add_sub_cancel_right]
      refine (Table.filter_flatMap List.nodup_range' (fun w r hr => ?_) p.1).trans (if_pos hw)
      obtain ⟨d, -, rfl⟩ := List.mem_map.1 hr
      rfl
    have hrows : (List.filter (fun q => decide (q.1.1 = p.1))
        ((importTables draws warehouseCount).district.map District.ytd)) =
        ((importTables draws warehouseCount).district.filter fun r => r.dWId = p.1).map
          District.ytd := List.filter_map
    have hsum := sum_map_const (g := Prod.snd ∘ District.ytd) (c := districtInitialYtd)
      (l := districts.map fun d => (⟨p.1, d, districtInitialYtd, customersPerDistrict + 1,
        draws.districtName p.1 d⟩ : District)) fun r hr => by
        obtain ⟨d, -, rfl⟩ := List.mem_map.1 hr
        rfl
    rw [hytd, Table.total, hrows, hfilter, List.map_map, hsum, List.length_map, hten]
    exact mul_comm _ _
  · obtain ⟨hw, hytd⟩ := mem_warehouseYtd hp
    have hfilter : ((importTables draws warehouseCount).history.filter fun r => r.hWId = p.1) =
        districts.flatMap (loadHistory draws p.1) := by
      rw [history_eq]
      refine (Table.filter_flatMap List.nodup_range' (fun w r hr => ?_) p.1).trans (if_pos hw)
      obtain ⟨d, -, hr⟩ := List.mem_flatMap.1 hr
      exact congrArg Prod.fst (mem_loadHistory hr)
    rw [hytd, Table.total, hfilter, List.map_flatMap, List.flatMap_def, List.sum_flatten, List.map_map]
    simp only [Function.comp_def, sum_loadHistory]
    rw [sum_map_const (c := districtInitialYtd) fun _ _ => rfl, hten]
    exact mul_comm _ _
  · obtain ⟨hgrid, hytd⟩ := mem_districtYtd hp
    have hfilter : ((importTables draws warehouseCount).history.filter fun r => r.district = p.1) =
        loadHistory draws p.1.1 p.1.2 := by
      refine (Table.filter_flatMap (grid_nodup warehouseCount)
        (fun p r hr => mem_loadHistory hr) p.1).trans ?_
      rw [if_pos hgrid]
    rw [hytd, Table.total, hfilter, sum_loadHistory]

end Money

section Balances

/-- What is delivered at the import costs nothing. -/
theorem orderDelivered_import (k : Nat × Nat × Nat) :
    orderDelivered (importTables draws warehouseCount) k = 0 := by
  refine Table.total_eq_zero fun l hl hp => ?_
  obtain ⟨-, -, hamount⟩ := mem_orderLine hl
  refine hamount fun hnone => ?_
  simp [OrderLine.delivered, hnone] at hp

theorem customerDelivered_import (k : Nat × Nat × Nat) :
    customerDelivered (importTables draws warehouseCount) k = 0 :=
  Table.total_eq_zero fun _ _ _ => orderDelivered_import _

theorem customerPaid_import {k : Nat × Nat × Nat} (hk : k ∈ orderGrid warehouseCount) :
    customerPaid (importTables draws warehouseCount) k = 1000 := by
  rw [← map_customer_history draws] at hk
  obtain ⟨r, hr, hkey⟩ := List.mem_map.1 hk
  have hnodup : ((importTables draws warehouseCount).history.map History.customer).Nodup := by
    rw [map_customer_history]
    exact orderGrid_nodup warehouseCount
  rw [customerPaid, Table.total_key hnodup hr hkey]
  obtain ⟨p, -, hr⟩ := List.mem_flatMap.1 hr
  obtain ⟨c, -, rfl⟩ := List.mem_map.1 hr
  rfl

theorem mem_account {p : (Nat × Nat × Nat) × Money × Money}
    (hp : p ∈ (importTables draws warehouseCount).customer.map Customer.account) :
    p.1 ∈ orderGrid warehouseCount ∧ p.2 = (-1000, 1000) := by
  obtain ⟨r, hr, rfl⟩ := List.mem_map.1 hp
  refine ⟨?_, ?_⟩
  · rw [← map_key_customer draws]
    exact List.mem_map_of_mem hr
  · obtain ⟨q, -, hr⟩ := List.mem_flatMap.1 hr
    obtain ⟨c, -, rfl⟩ := List.mem_map.1 hr
    rfl

theorem importTables_balancesOk :
    BalancesOk ((importTables draws warehouseCount).customer.map Customer.account)
      (importTables draws warehouseCount) := by
  refine ⟨fun p hp => ?_, fun p hp => ?_⟩
  · obtain ⟨hgrid, haccount⟩ := mem_account hp
    rw [haccount, customerDelivered_import, customerPaid_import hgrid]
    rfl
  · obtain ⟨hgrid, haccount⟩ := mem_account hp
    rw [haccount, customerPaid_import hgrid]

end Balances

/-- The invariant of the transactions holds after an import. -/
theorem importTables_sound (draws : ImportDraws) (warehouseCount : Nat) :
    Sound (importTables draws warehouseCount) where
  keyed := importTables_keyed
  orders := importTables_ordersOk
  money := importTables_moneyOk
  balances := importTables_balancesOk

end Tpcc.Import
