import Mathlib.Data.List.Range
import Tpcc.Store.Totals

/-! The consistency conditions of the tables, and the invariant of the transactions that gives
them. -/

namespace Tpcc.Store

open Lib

def Oorder.district (r : Oorder) : Nat × Nat := (r.oWId, r.oDId)

def NewOrder.district (r : NewOrder) : Nat × Nat := (r.noWId, r.noDId)

def OrderLine.district (r : OrderLine) : Nat × Nat := (r.olWId, r.olDId)

def History.district (r : History) : Nat × Nat := (r.hWId, r.hDId)

section Lists

variable (oorder : List Oorder) (newOrder : List NewOrder) (orderLine : List OrderLine)

/-- The order ids of a district. -/
def orderIds (district : Nat × Nat) : List Nat :=
  (oorder.filter fun r => r.district = district).map Oorder.oId

/-- The ids of a district's orders that are not delivered. -/
def newOrderIds (district : Nat × Nat) : List Nat :=
  (newOrder.filter fun r => r.district = district).map NewOrder.noOId

/-- The lines of an order. -/
def linesOf (order : Nat × Nat × Nat) : List OrderLine :=
  orderLine.filter fun r => r.order = order

end Lists

/-- The consistency conditions, for every warehouse, district, order and customer. -/
structure Consistent (db : Database) : Prop where
  warehouseYtd : ∀ w ∈ db.warehouse,
    w.wYtd = Table.total (fun d => d.dWId = w.wId) District.dYtd db.district
  nextOrder : ∀ d ∈ db.district, ∃ greatest, (orderIds db.oorder d.key).max? = some greatest ∧
    greatest + 1 = d.dNextOId
  nextNewOrder : ∀ d ∈ db.district, ∀ greatest,
    (newOrderIds db.newOrder d.key).max? = some greatest → greatest + 1 = d.dNextOId
  contiguous : ∀ d ∈ db.district, ∃ first n,
    (newOrderIds db.newOrder d.key).Perm (List.range' first n)
  lineCount : ∀ o ∈ db.oorder, (linesOf db.orderLine o.key).length = o.oOlCnt
  districtLineCount : ∀ d ∈ db.district,
    (db.orderLine.filter fun l => l.district = d.key).length =
      ((db.oorder.filter fun o => o.district = d.key).map Oorder.oOlCnt).sum
  carrier : ∀ o ∈ db.oorder, (o.oCarrierId = none ↔ ∃ n ∈ db.newOrder, n.key = o.key)
  delivery : ∀ o ∈ db.oorder, ∀ l ∈ db.orderLine, l.order = o.key →
    (l.olDeliveryD = none ↔ o.oCarrierId = none)
  warehouseHistory : ∀ w ∈ db.warehouse,
    w.wYtd = Table.total (fun h => h.hWId = w.wId) History.hAmount db.history
  districtHistory : ∀ d ∈ db.district,
    d.dYtd = Table.total (fun h => h.district = d.key) History.hAmount db.history
  balance : ∀ c ∈ db.customer,
    c.cBalance = customerDelivered db c.key - customerPaid db c.key
  balanceYtd : ∀ c ∈ db.customer,
    c.cBalance + c.cYtdPayment = customerDelivered db c.key

/-- A district's key with its next order id. -/
def District.next (r : District) : (Nat × Nat) × Nat := (r.key, r.dNextOId)

/-- A district's key with its `D_YTD`. -/
def District.ytd (r : District) : (Nat × Nat) × Money := (r.key, r.dYtd)

def Warehouse.ytd (r : Warehouse) : Nat × Money := (r.wId, r.wYtd)

/-- A customer's key with the balance and the payments. -/
def Customer.account (r : Customer) : (Nat × Nat × Nat) × Money × Money :=
  (r.key, r.cBalance, r.cYtdPayment)

/-- The orders, where `nexts` are the next order ids of the districts: the orders of a district have
the ids from 1 on, those not delivered are the last ones, in this order. -/
structure OrdersOk (nexts : List ((Nat × Nat) × Nat)) (oorder : List Oorder)
    (newOrder : List NewOrder) (orderLine : List OrderLine) : Prop where
  districtKeys : (nexts.map Prod.fst).Nodup
  keys : (oorder.map Oorder.key).Nodup
  orders : ∀ p ∈ nexts, 2 ≤ p.2 ∧ orderIds oorder p.1 = List.range' 1 (p.2 - 1)
  newOrders : ∀ p ∈ nexts, ∃ first, 1 ≤ first ∧ first ≤ p.2 ∧
    newOrderIds newOrder p.1 = List.range' first (p.2 - first)
  newOrderDistrict : ∀ n ∈ newOrder, n.district ∈ nexts.map Prod.fst
  carrier : ∀ o ∈ oorder, (o.oCarrierId = none ↔ ∃ n ∈ newOrder, n.key = o.key)
  delivery : ∀ o ∈ oorder, ∀ l ∈ orderLine, l.order = o.key →
    (l.olDeliveryD = none ↔ o.oCarrierId = none)
  lineOrder : ∀ l ∈ orderLine, ∃ o ∈ oorder, o.key = l.order
  lineCount : ∀ o ∈ oorder, (linesOf orderLine o.key).length = o.oOlCnt ∧ 1 ≤ o.oOlCnt

/-- The sums of the payments. -/
structure MoneyOk (warehouses : List (Nat × Money)) (districts : List ((Nat × Nat) × Money))
    (history : List History) : Prop where
  keys : (districts.map Prod.fst).Nodup
  districtSum : ∀ p ∈ warehouses,
    p.2 = Table.total (fun q => q.1.1 = p.1) Prod.snd districts
  warehouseHistory : ∀ p ∈ warehouses,
    p.2 = Table.total (fun h => h.hWId = p.1) History.hAmount history
  districtHistory : ∀ p ∈ districts,
    p.2 = Table.total (fun h => h.district = p.1) History.hAmount history

/-- The balances of the customers. -/
structure BalancesOk (accounts : List ((Nat × Nat × Nat) × Money × Money)) (db : Database) :
    Prop where
  balance : ∀ p ∈ accounts, p.2.1 = customerDelivered db p.1 - customerPaid db p.1
  ytd : ∀ p ∈ accounts, p.2.2 = customerPaid db p.1

/-- The primary keys are keys. -/
structure Keyed (db : Database) : Prop where
  warehouse : (db.warehouse.map Warehouse.key).Nodup
  district : (db.district.map District.key).Nodup
  customer : (db.customer.map Customer.key).Nodup
  oorder : (db.oorder.map Oorder.key).Nodup
  newOrder : (db.newOrder.map NewOrder.key).Nodup
  orderLine : (db.orderLine.map OrderLine.key).Nodup
  item : (db.item.map Item.key).Nodup
  stock : (db.stock.map Stock.key).Nodup

/-- The invariant of the transactions. -/
structure Sound (db : Database) : Prop where
  keyed : Keyed db
  orders : OrdersOk (db.district.map District.next) db.oorder db.newOrder db.orderLine
  money : MoneyOk (db.warehouse.map Warehouse.ytd) (db.district.map District.ytd) db.history
  balances : BalancesOk (db.customer.map Customer.account) db

section Consistent

variable {nexts : List ((Nat × Nat) × Nat)} {oorder : List Oorder} {newOrder : List NewOrder}
  {orderLine : List OrderLine}

theorem max?_range' {first n : Nat} (h : 0 < n) :
    (List.range' first n).max? = some (first + n - 1) := by
  rw [List.max?_eq_some_iff]
  simp only [List.mem_range'_1]
  exact ⟨by omega, fun b hb => by omega⟩

/-- The lines of a district are the lines of its orders. -/
theorem OrdersOk.districtLineCount (h : OrdersOk nexts oorder newOrder orderLine)
    (district : Nat × Nat) :
    (orderLine.filter fun l => l.district = district).length =
      ((oorder.filter fun o => o.district = district).map Oorder.oOlCnt).sum := by
  have hcounts : ((oorder.filter fun o => o.district = district).map Oorder.oOlCnt) =
      ((oorder.filter fun o => o.district = district).map Oorder.key).map fun k =>
        (orderLine.filter fun l => l.order = k).length := by
    rw [List.map_map]
    refine List.map_congr_left fun o ho => ?_
    exact (h.lineCount o (List.mem_filter.1 ho).1).1.symm
  have hnodup : ((oorder.filter fun o => o.district = district).map Oorder.key).Nodup :=
    h.keys.sublist (List.filter_sublist.map _)
  rw [hcounts, Table.sum_length_filter hnodup]
  congr 1
  refine List.filter_congr fun l hl => ?_
  rw [decide_eq_decide]
  constructor
  · intro hdistrict
    obtain ⟨o, ho, hkey⟩ := h.lineOrder l hl
    refine List.mem_map.2 ⟨o, List.mem_filter.2 ⟨ho, ?_⟩, hkey⟩
    simp only [Oorder.key, OrderLine.order, Prod.mk.injEq] at hkey
    simp only [OrderLine.district] at hdistrict
    simp [Oorder.district, hkey, hdistrict]
  · intro hmem
    obtain ⟨o, ho, hkey⟩ := List.mem_map.1 hmem
    have hdistrict : o.district = district := by simpa using (List.mem_filter.1 ho).2
    simp only [Oorder.key, OrderLine.order, Prod.mk.injEq] at hkey
    rw [← hdistrict]
    simp [Oorder.district, OrderLine.district, hkey]

theorem Sound.consistent {db : Database} (h : Sound db) : Consistent db where
  warehouseYtd w hw := by
    refine (h.money.districtSum w.ytd (List.mem_map_of_mem hw)).trans ?_
    simp only [Table.total, List.filter_map, List.map_map]
    rfl
  nextOrder d hd := by
    obtain ⟨htwo, hids⟩ := h.orders.orders d.next (List.mem_map_of_mem hd)
    have hpos : 0 < d.dNextOId - 1 := by
      have : 2 ≤ d.dNextOId := htwo
      omega
    refine ⟨d.dNextOId - 1, ?_, by omega⟩
    have hmax := @max?_range' 1 _ hpos
    rw [show orderIds db.oorder d.key = _ from hids]
    simpa [District.next] using hmax
  nextNewOrder d hd greatest hmax := by
    obtain ⟨first, hfirst, hle, hids⟩ := h.orders.newOrders d.next (List.mem_map_of_mem hd)
    have hids' : newOrderIds db.newOrder d.key = List.range' first (d.dNextOId - first) := hids
    have hle' : first ≤ d.dNextOId := hle
    rw [hids'] at hmax
    have hpos : 0 < d.dNextOId - first := by
      by_contra hzero
      rw [Nat.eq_zero_of_not_pos hzero] at hmax
      cases hmax
    rw [max?_range' hpos, Option.some_inj] at hmax
    omega
  contiguous d hd := by
    obtain ⟨first, -, -, hids⟩ := h.orders.newOrders d.next (List.mem_map_of_mem hd)
    exact ⟨first, _, List.Perm.of_eq hids⟩
  lineCount o ho := (h.orders.lineCount o ho).1
  districtLineCount d _ := h.orders.districtLineCount d.key
  carrier := h.orders.carrier
  delivery := h.orders.delivery
  warehouseHistory w hw := h.money.warehouseHistory w.ytd (List.mem_map_of_mem hw)
  districtHistory d hd := h.money.districtHistory d.ytd (List.mem_map_of_mem hd)
  balance c hc := h.balances.balance c.account (List.mem_map_of_mem hc)
  balanceYtd c hc := by
    have hbalance : c.cBalance = customerDelivered db c.key - customerPaid db c.key :=
      h.balances.balance c.account (List.mem_map_of_mem hc)
    have hytd : c.cYtdPayment = customerPaid db c.key :=
      h.balances.ytd c.account (List.mem_map_of_mem hc)
    rw [hbalance, hytd]
    exact Int.sub_add_cancel _ _

end Consistent

end Tpcc.Store
