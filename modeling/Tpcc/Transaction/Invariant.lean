import Tpcc.Transaction.Operation

/-! The invariant of the tables survives every operation that can be done. -/

namespace Tpcc.Transaction

open Lib Store

section Payment

variable {db : Database} {row : History} {cData : Option String}

theorem payment_warehouseYtd :
    ((Operation.payment row cData).apply db).warehouse.map Warehouse.ytd =
      Table.update Prod.fst row.hWId (fun p => (p.1, p.2 + row.hAmount))
        (db.warehouse.map Warehouse.ytd) :=
  Table.map_update_comm (fun _ => rfl) fun _ => rfl

theorem payment_districtYtd :
    ((Operation.payment row cData).apply db).district.map District.ytd =
      Table.update Prod.fst row.district (fun p => (p.1, p.2 + row.hAmount))
        (db.district.map District.ytd) :=
  Table.map_update_comm (fun _ => rfl) fun _ => rfl

theorem payment_account :
    ((Operation.payment row cData).apply db).customer.map Customer.account =
      Table.update Prod.fst row.customer
        (fun p => (p.1, p.2.1 - row.hAmount, p.2.2 + row.hAmount))
        (db.customer.map Customer.account) :=
  Table.map_update_comm (fun _ => rfl) fun _ => rfl

theorem MoneyOk.payment
    (h : MoneyOk (db.warehouse.map Warehouse.ytd) (db.district.map District.ytd) db.history)
    (hdistrict : row.district ∈ db.district.map District.key) :
    MoneyOk
      (Table.update Prod.fst row.hWId (fun p => (p.1, p.2 + row.hAmount))
        (db.warehouse.map Warehouse.ytd))
      (Table.update Prod.fst row.district (fun p => (p.1, p.2 + row.hAmount))
        (db.district.map District.ytd))
      (db.history ++ [row]) := by
  obtain ⟨q, hq, hqkey⟩ : ∃ q ∈ db.district.map District.ytd, q.1 = row.district := by
    obtain ⟨r, hr, hkey⟩ := List.mem_map.1 hdistrict
    exact ⟨r.ytd, List.mem_map_of_mem hr, hkey⟩
  have hqw : q.1.1 = row.hWId := by rw [hqkey]; rfl
  refine ⟨?_, ?_, ?_, ?_⟩
  · have hkeys : (Table.update Prod.fst row.district (fun p => (p.1, p.2 + row.hAmount))
        (db.district.map District.ytd)).map Prod.fst = _ := Table.map_update fun _ => rfl
    rw [hkeys]
    exact h.keys
  · refine Table.forall_update fun p hp => ?_
    have hsum := h.districtSum p hp
    have htotal : ∀ w, Table.total (fun q : (Nat × Nat) × Money => decide (q.1.1 = w)) Prod.snd
        (Table.update Prod.fst row.district (fun p => (p.1, p.2 + row.hAmount))
          (db.district.map District.ytd)) = _ := fun w =>
      Table.total_update h.keys hq hqkey (fun _ => rfl) rfl
    by_cases hpw : p.1 = row.hWId
    · simp only [hpw, if_true] at hsum ⊢
      rw [htotal, hqw, hsum]
      simp
    · rw [if_neg hpw, htotal, hqw, hsum]
      simp [Ne.symm hpw]
  · refine Table.forall_update fun p hp => ?_
    have hsum := h.warehouseHistory p hp
    by_cases hpw : p.1 = row.hWId
    · simp only [hpw, if_true, Table.total_append, Table.total_cons, Table.total_nil] at hsum ⊢
      rw [hsum]
      simp
    · rw [if_neg hpw, Table.total_append, ← hsum]
      simp [Table.total, Ne.symm hpw]
  · refine Table.forall_update fun p hp => ?_
    have hsum := h.districtHistory p hp
    by_cases hpd : p.1 = row.district
    · simp only [hpd, if_true, Table.total_append, Table.total_cons, Table.total_nil] at hsum ⊢
      rw [hsum]
      simp
    · rw [if_neg hpd, Table.total_append, ← hsum]
      simp [Table.total, Ne.symm hpd]

theorem customerPaid_payment (k : Nat × Nat × Nat) :
    customerPaid ((Operation.payment row cData).apply db) k =
      customerPaid db k + if row.customer = k then row.hAmount else 0 := by
  simp only [customerPaid, Operation.apply, Table.total_append, Table.total_cons, Table.total_nil]
  simp

theorem BalancesOk.payment (h : BalancesOk (db.customer.map Customer.account) db) :
    BalancesOk
      (((Operation.payment row cData).apply db).customer.map Customer.account)
      ((Operation.payment row cData).apply db) := by
  rw [payment_account]
  refine ⟨?_, ?_⟩
  · refine Table.forall_update fun p hp => ?_
    have hbalance : p.2.1 =
        customerDelivered ((Operation.payment row cData).apply db) p.1 - customerPaid db p.1 :=
      h.balance p hp
    simp only [customerPaid_payment]
    by_cases hk : p.1 = row.customer
    · rw [if_pos hk, if_pos hk.symm, hbalance]
      exact Int.sub_sub _ _ _
    · rw [if_neg hk, if_neg (Ne.symm hk), hbalance, Int.add_zero]
  · refine Table.forall_update fun p hp => ?_
    have hytd := h.ytd p hp
    simp only [customerPaid_payment]
    by_cases hk : p.1 = row.customer
    · rw [if_pos hk, if_pos hk.symm, hytd]
    · rw [if_neg hk, if_neg (Ne.symm hk), hytd, Int.add_zero]

theorem Sound.payment (h : Sound db) (he : row.district ∈ db.district.map District.key) :
    Sound ((Operation.payment row cData).apply db) where
  keyed :=
    { h.keyed with
      warehouse := by
        rw [show ((Operation.payment row cData).apply db).warehouse.map Warehouse.key = _ from
          Table.map_update fun _ => rfl]
        exact h.keyed.warehouse
      district := by
        rw [show ((Operation.payment row cData).apply db).district.map District.key = _ from
          Table.map_update fun _ => rfl]
        exact h.keyed.district
      customer := by
        rw [show ((Operation.payment row cData).apply db).customer.map Customer.key = _ from
          Table.map_update fun _ => rfl]
        exact h.keyed.customer }
  orders := by
    have hnext : ((Operation.payment row cData).apply db).district.map District.next =
      db.district.map District.next := Table.map_update fun _ => rfl
    rw [hnext]
    exact h.orders
  money := by
    rw [payment_warehouseYtd, payment_districtYtd]
    exact MoneyOk.payment h.money he
  balances := BalancesOk.payment h.balances

end Payment

section NewOrder

variable {db : Database} {order : Oorder} {lines : List OrderLine}

/-- An order with its district's next id is new. -/
theorem next_fresh (h : Sound db)
    (hnext : (order.district, order.oId) ∈ db.district.map District.next) :
    order.key ∉ db.oorder.map Oorder.key := by
  intro hmem
  obtain ⟨o, ho, hkey⟩ := List.mem_map.1 hmem
  obtain ⟨-, hids⟩ := h.orders.orders _ hnext
  simp only [Oorder.key, Prod.mk.injEq] at hkey
  have hid : order.oId ∈ orderIds db.oorder order.district := by
    refine List.mem_map.2 ⟨o, List.mem_filter.2 ⟨ho, ?_⟩, hkey.2.2⟩
    simp [Oorder.district, hkey]
  rw [hids, List.mem_range'_1] at hid
  simp only at hid
  omega

theorem next_fresh_newOrder (h : Sound db)
    (hnext : (order.district, order.oId) ∈ db.district.map District.next) :
    order.key ∉ db.newOrder.map NewOrder.key := by
  intro hmem
  obtain ⟨n, hn, hkey⟩ := List.mem_map.1 hmem
  simp only [NewOrder.key, Oorder.key, Prod.mk.injEq] at hkey
  obtain ⟨first, -, -, hids⟩ := h.orders.newOrders _ hnext
  have hid : order.oId ∈ newOrderIds db.newOrder order.district := by
    refine List.mem_map.2 ⟨n, List.mem_filter.2 ⟨hn, ?_⟩, hkey.2.2⟩
    simp [NewOrder.district, Oorder.district, hkey]
  rw [hids, List.mem_range'_1] at hid
  simp only at hid
  omega

/-- No line belongs to it yet. -/
theorem next_fresh_orderLine (h : Sound db)
    (hnext : (order.district, order.oId) ∈ db.district.map District.next) :
    ∀ l ∈ db.orderLine, l.order ≠ order.key := by
  intro l hl heq
  obtain ⟨o, ho, hkey⟩ := h.orders.lineOrder l hl
  exact next_fresh h hnext (List.mem_map.2 ⟨o, ho, hkey.trans heq⟩)

theorem Placeable.fresh (he : Placeable db order lines) (h : Sound db) :
    order.key ∉ db.oorder.map Oorder.key := next_fresh h he.next

theorem Placeable.line_ne (he : Placeable db order lines) (h : Sound db) :
    ∀ l ∈ db.orderLine, l.order ≠ order.key := next_fresh_orderLine h he.next

theorem Placeable.linesOf_old (he : Placeable db order lines) {k : Nat × Nat × Nat}
    (hk : k ≠ order.key) : linesOf (db.orderLine ++ lines) k = linesOf db.orderLine k := by
  have hnone : linesOf lines k = [] :=
    List.filter_eq_nil_iff.2 fun l hl => by
      rw [(he.lineOrder l hl).1]
      simpa using Ne.symm hk
  rw [linesOf, List.filter_append]
  change _ ++ linesOf lines k = _
  rw [hnone, List.append_nil]
  rfl

theorem Placeable.linesOf_new (he : Placeable db order lines) (h : Sound db) :
    linesOf (db.orderLine ++ lines) order.key = lines := by
  have hold : db.orderLine.filter (fun l => l.order = order.key) = [] :=
    List.filter_eq_nil_iff.2 fun l hl => by simpa using he.line_ne h l hl
  have hnew : lines.filter (fun l => l.order = order.key) = lines :=
    List.filter_eq_self.2 fun l hl => by simpa using (he.lineOrder l hl).1
  rw [linesOf, List.filter_append, hold, hnew, List.nil_append]

theorem newOrder_districtNext :
    ((Operation.newOrder order lines).apply db).district.map District.next =
      Table.update Prod.fst order.district (fun p => (p.1, p.2 + 1))
        (db.district.map District.next) :=
  Table.map_update_comm (fun _ => rfl) fun _ => rfl

theorem orderIds_append (oorder : List Oorder) (district : Nat × Nat) :
    orderIds (oorder ++ [order]) district =
      orderIds oorder district ++ if order.district = district then [order.oId] else [] := by
  by_cases hd : order.district = district
  · simp [orderIds, hd]
  · simp [orderIds, hd]

theorem newOrderIds_append (newOrder : List NewOrder) (n : NewOrder) (district : Nat × Nat) :
    newOrderIds (newOrder ++ [n]) district =
      newOrderIds newOrder district ++ if n.district = district then [n.noOId] else [] := by
  by_cases hd : n.district = district
  · simp [newOrderIds, hd]
  · simp [newOrderIds, hd]

theorem OrdersOk.newOrder (he : Placeable db order lines) (h : Sound db) :
    OrdersOk
      (Table.update Prod.fst order.district (fun p => (p.1, p.2 + 1))
        (db.district.map District.next))
      (db.oorder ++ [order]) (db.newOrder ++ [⟨order.oWId, order.oDId, order.oId⟩])
      (db.orderLine ++ lines) := by
  have hok := h.orders
  have hfresh := he.fresh h
  have hkeys : (Table.update Prod.fst order.district (fun p => (p.1, p.2 + 1))
      (db.district.map District.next)).map Prod.fst = (db.district.map District.next).map Prod.fst :=
    Table.map_update fun _ => rfl
  have hold : ∀ o ∈ db.oorder, order.key ≠ o.key := fun o ho heq =>
    hfresh (List.mem_map.2 ⟨o, ho, heq.symm⟩)
  refine ⟨?_, ?_, ?_, ?_, ?_, ?_, ?_, ?_, ?_⟩
  · rw [hkeys]
    exact hok.districtKeys
  · exact Table.nodup_append_of_not_mem hok.keys hfresh
  · refine Table.forall_update fun p hp => ?_
    obtain ⟨htwo, hids⟩ := hok.orders p hp
    rw [orderIds_append]
    by_cases hd : p.1 = order.district
    · obtain rfl := Table.eq_of_key hok.districtKeys hp he.next hd
      simp only [if_true] at htwo hids ⊢
      refine ⟨by omega, ?_⟩
      rw [hids, show order.oId + 1 - 1 = (order.oId - 1) + 1 by omega, List.range'_1_concat]
      congr 2
      omega
    · rw [if_neg hd, if_neg (Ne.symm hd), List.append_nil]
      exact ⟨htwo, hids⟩
  · refine Table.forall_update fun p hp => ?_
    obtain ⟨first, hfirst, hle, hids⟩ := hok.newOrders p hp
    by_cases hd : p.1 = order.district
    · obtain rfl := Table.eq_of_key hok.districtKeys hp he.next hd
      simp only [if_true] at hle hids ⊢
      refine ⟨first, hfirst, by omega, ?_⟩
      have hsame : NewOrder.district ⟨order.oWId, order.oDId, order.oId⟩ = order.district := rfl
      rw [newOrderIds_append, hids, if_pos hsame,
        show order.oId + 1 - first = (order.oId - first) + 1 by omega, List.range'_1_concat,
        Nat.add_sub_cancel' hle]
    · rw [if_neg hd]
      refine ⟨first, hfirst, hle, ?_⟩
      rw [newOrderIds_append, hids]
      have hne : ¬NewOrder.district ⟨order.oWId, order.oDId, order.oId⟩ = p.1 := Ne.symm hd
      rw [if_neg hne, List.append_nil]
  · rw [hkeys]
    intro n hn
    rcases List.mem_append.1 hn with hn | hn
    · exact hok.newOrderDistrict n hn
    · obtain rfl := List.mem_singleton.1 hn
      exact List.mem_map.2 ⟨_, he.next, rfl⟩
  · intro o ho
    rcases List.mem_append.1 ho with ho | ho
    · rw [hok.carrier o ho]
      constructor
      · rintro ⟨n, hn, hkey⟩
        exact ⟨n, List.mem_append_left _ hn, hkey⟩
      · rintro ⟨n, hn, hkey⟩
        rcases List.mem_append.1 hn with hn | hn
        · exact ⟨n, hn, hkey⟩
        · obtain rfl := List.mem_singleton.1 hn
          exact absurd hkey (hold o ho)
    · obtain rfl := List.mem_singleton.1 ho
      exact ⟨fun _ => ⟨_, List.mem_append_right _ List.mem_cons_self, rfl⟩, fun _ => he.carrier⟩
  · intro o ho l hl hline
    rcases List.mem_append.1 ho with ho | ho
    · rcases List.mem_append.1 hl with hl | hl
      · exact hok.delivery o ho l hl hline
      · exact absurd ((he.lineOrder l hl).1.symm.trans hline) (hold o ho)
    · obtain rfl := List.mem_singleton.1 ho
      rcases List.mem_append.1 hl with hl | hl
      · exact absurd hline (he.line_ne h l hl)
      · exact ⟨fun _ => he.carrier, fun _ => (he.lineOrder l hl).2⟩
  · intro l hl
    rcases List.mem_append.1 hl with hl | hl
    · obtain ⟨o, ho, hkey⟩ := hok.lineOrder l hl
      exact ⟨o, List.mem_append_left _ ho, hkey⟩
    · exact ⟨order, List.mem_append_right _ List.mem_cons_self, (he.lineOrder l hl).1.symm⟩
  · intro o ho
    rcases List.mem_append.1 ho with ho | ho
    · rw [he.linesOf_old (Ne.symm (hold o ho))]
      exact hok.lineCount o ho
    · obtain rfl := List.mem_singleton.1 ho
      rw [he.linesOf_new h, he.olCnt]
      exact ⟨rfl, List.length_pos_of_ne_nil he.nonempty⟩

/-- Its lines are not delivered, so that nothing is credited. -/
theorem customerDelivered_newOrder (he : Placeable db order lines) (h : Sound db)
    (k : Nat × Nat × Nat) :
    customerDelivered ((Operation.newOrder order lines).apply db) k = customerDelivered db k := by
  have hdelivered : ∀ key, orderDelivered ((Operation.newOrder order lines).apply db) key =
      orderDelivered db key := by
    intro key
    have hzero : Table.total (fun r => decide (r.order = key) && r.delivered) OrderLine.olAmount
        lines = 0 := Table.total_eq_zero fun l hl hp => by
      simp [OrderLine.delivered, (he.lineOrder l hl).2] at hp
    change Table.total _ _ (db.orderLine ++ lines) = _
    rw [Table.total_append, hzero]
    exact Int.add_zero _
  have hnew : orderDelivered db order.key = 0 := Table.total_eq_zero fun l hl hp => by
    simp [he.line_ne h l hl] at hp
  simp only [customerDelivered, hdelivered]
  change Table.total _ _ (db.oorder ++ [order]) = _
  rw [Table.total_append, Table.total_cons, Table.total_nil, hnew]
  simp

theorem map_key_supply (lines : List OrderLine) (stock : List Stock) :
    (lines.foldl supply stock).map Stock.key = stock.map Stock.key := by
  induction lines generalizing stock with
  | nil => rfl
  | cons l lines ih =>
    rw [List.foldl_cons, ih]
    exact Table.map_update fun _ => rfl

theorem Placeable.keyed (he : Placeable db order lines) (h : Sound db) :
    Keyed ((Operation.newOrder order lines).apply db) where
  warehouse := h.keyed.warehouse
  district := by
    rw [show ((Operation.newOrder order lines).apply db).district.map District.key = _ from
      Table.map_update fun _ => rfl]
    exact h.keyed.district
  customer := h.keyed.customer
  oorder := Table.nodup_append_of_not_mem h.keyed.oorder (he.fresh h)
  newOrder := Table.nodup_append_of_not_mem h.keyed.newOrder (next_fresh_newOrder h he.next)
  orderLine := by
    have hlines : (lines.map OrderLine.key).Nodup := by
      refine List.Nodup.of_map (fun k => k.2.2.2) ?_
      rw [List.map_map]
      exact he.numbers
    change ((db.orderLine ++ lines).map OrderLine.key).Nodup
    rw [List.map_append]
    refine h.keyed.orderLine.append hlines fun k hk hk' => ?_
    obtain ⟨l, hl, rfl⟩ := List.mem_map.1 hk
    obtain ⟨l', hl', heq⟩ := List.mem_map.1 hk'
    refine he.line_ne h l hl ?_
    rw [← (he.lineOrder l' hl').1]
    simp only [OrderLine.key, Prod.mk.injEq] at heq
    simp [OrderLine.order, heq]
  item := h.keyed.item
  stock := by
    change ((lines.foldl supply db.stock).map Stock.key).Nodup
    rw [map_key_supply]
    exact h.keyed.stock

theorem Sound.newOrder (h : Sound db) (he : Placeable db order lines) :
    Sound ((Operation.newOrder order lines).apply db) where
  keyed := he.keyed h
  orders := by
    rw [newOrder_districtNext]
    exact OrdersOk.newOrder he h
  money := by
    have hytd : ((Operation.newOrder order lines).apply db).district.map District.ytd =
      db.district.map District.ytd := Table.map_update fun _ => rfl
    rw [hytd]
    exact h.money
  balances :=
    { balance := fun p hp => by
        rw [customerDelivered_newOrder he h]
        exact h.balances.balance p hp
      ytd := h.balances.ytd }

end NewOrder

section Deliver

variable {db : Database} {x : Delivered}

theorem Deliverable.pending (he : Deliverable db x) : ∃ n ∈ db.newOrder, n.key = x.order := by
  obtain ⟨rest, hids⟩ := he.oldest
  have hmem : x.orderId ∈ newOrderIds db.newOrder (x.w, x.d) := by
    rw [hids]
    exact List.mem_cons_self
  obtain ⟨n, hn, hid⟩ := List.mem_map.1 hmem
  obtain ⟨hn, hdistrict⟩ := List.mem_filter.1 hn
  refine ⟨n, hn, ?_⟩
  simp only [NewOrder.district, decide_eq_true_eq, Prod.mk.injEq] at hdistrict
  simp [NewOrder.key, Delivered.order, hid, hdistrict]

/-- The order that is delivered was not delivered before. -/
theorem Deliverable.undelivered (he : Deliverable db x) (h : Sound db) :
    ∀ l ∈ db.orderLine, l.order = x.order → l.olDeliveryD = none := by
  intro l hl hline
  obtain ⟨o, ho, hkey, -⟩ := he.order
  refine (h.orders.delivery o ho l hl (hline.trans hkey.symm)).2 ((h.orders.carrier o ho).2 ?_)
  obtain ⟨n, hn, hn'⟩ := he.pending
  exact ⟨n, hn, hn'.trans hkey.symm⟩

/-- The new orders that are left in a district. -/
theorem newOrderIds_filter (newOrder : List NewOrder) (district : Nat × Nat) :
    newOrderIds (newOrder.filter fun r => r.key ≠ x.order) district =
      if district = (x.w, x.d) then
        (newOrderIds newOrder district).filter fun i => i ≠ x.orderId
      else newOrderIds newOrder district := by
  simp only [newOrderIds, List.filter_map, List.filter_filter]
  by_cases hd : district = (x.w, x.d)
  · rw [if_pos hd]
    congr 1
    refine List.filter_congr fun n _ => ?_
    subst hd
    simp only [NewOrder.district, NewOrder.key, Delivered.order, Prod.mk.injEq, Function.comp]
    by_cases hw : n.noWId = x.w
    · by_cases hdi : n.noDId = x.d
      · simp [hw, hdi]
      · simp [hdi]
    · simp [hw]
  · rw [if_neg hd]
    congr 1
    refine List.filter_congr fun n _ => ?_
    by_cases hn : n.district = district
    · have hne : n.key ≠ x.order := by
        intro heq
        refine hd (hn.symm.trans ?_)
        simp only [NewOrder.key, Delivered.order, Prod.mk.injEq] at heq
        simp [NewOrder.district, heq]
      simp [hn, hne]
    · simp [hn]

theorem filter_range'_first (first n : Nat) :
    (List.range' first (n + 1)).filter (fun i => i ≠ first) = List.range' (first + 1) n := by
  rw [List.range'_succ, List.filter_cons_of_neg (by simp)]
  refine List.filter_eq_self.2 fun i hi => ?_
  have := (List.mem_range'_1.1 hi).1
  simp
  omega

theorem linesOf_deliver (orderLine : List OrderLine) (k : Nat × Nat × Nat) :
    linesOf (Table.update OrderLine.order x.order (fun r => { r with olDeliveryD := some x.now })
      orderLine) k =
      Table.update OrderLine.order x.order (fun r => { r with olDeliveryD := some x.now })
        (linesOf orderLine k) := Table.filter_update fun _ => rfl

theorem OrdersOk.deliver (he : Deliverable db x) (h : Sound db) :
    OrdersOk (db.district.map District.next)
      (Table.update Oorder.key x.order (fun r => { r with oCarrierId := some x.carrier }) db.oorder)
      (db.newOrder.filter fun r => r.key ≠ x.order)
      (Table.update OrderLine.order x.order (fun r => { r with olDeliveryD := some x.now })
        db.orderLine) := by
  have hok := h.orders
  refine ⟨hok.districtKeys, ?_, ?_, ?_, ?_, ?_, ?_, ?_, ?_⟩
  · rw [Table.map_update (by intro r; rfl)]
    exact hok.keys
  · intro p hp
    have hids : orderIds (Table.update Oorder.key x.order
        (fun r => { r with oCarrierId := some x.carrier }) db.oorder) p.1 =
        orderIds db.oorder p.1 := by
      rw [orderIds, Table.filter_update (by intro r; rfl), Table.map_update (by intro r; rfl)]
      rfl
    rw [hids]
    exact hok.orders p hp
  · intro p hp
    obtain ⟨first, hfirst, hle, hids⟩ := hok.newOrders p hp
    rw [newOrderIds_filter]
    by_cases hd : p.1 = (x.w, x.d)
    · obtain ⟨rest, hrest⟩ := he.oldest
      rw [hd, hrest] at hids
      obtain ⟨n, hn⟩ : ∃ n, p.2 - first = n + 1 := by
        refine Nat.exists_eq_succ_of_ne_zero fun hzero => ?_
        rw [hzero] at hids
        cases hids
      have hhead : x.orderId = first := by
        rw [hn, List.range'_succ] at hids
        exact (List.cons.inj hids).1
      refine ⟨first + 1, by omega, by omega, ?_⟩
      rw [if_pos hd, hd, hrest, hids, hhead, hn, filter_range'_first]
      congr 1
      omega
    · rw [if_neg hd]
      exact ⟨first, hfirst, hle, hids⟩
  · exact fun n hn => hok.newOrderDistrict n (List.mem_of_mem_filter hn)
  · refine Table.forall_update fun o ho => ?_
    by_cases hk : o.key = x.order
    · rw [if_pos hk]
      refine ⟨nofun, ?_⟩
      rintro ⟨n, hn, hkey⟩
      have hne : n.key ≠ x.order := by simpa using (List.mem_filter.1 hn).2
      exact absurd (hkey.trans hk) hne
    · rw [if_neg hk, hok.carrier o ho]
      constructor
      · rintro ⟨n, hn, hkey⟩
        exact ⟨n, List.mem_filter.2 ⟨hn, by simpa [hkey] using hk⟩, hkey⟩
      · rintro ⟨n, hn, hkey⟩
        exact ⟨n, List.mem_of_mem_filter hn, hkey⟩
  · refine Table.forall_update fun o ho => ?_
    by_cases hk : o.key = x.order
    · rw [if_pos hk]
      refine Table.forall_update fun l hl => ?_
      by_cases hlk : l.order = x.order
      · rw [if_pos hlk]
        exact fun _ => ⟨nofun, nofun⟩
      · rw [if_neg hlk]
        exact fun hline => absurd (hline.trans hk) hlk
    · rw [if_neg hk]
      refine Table.forall_update fun l hl => ?_
      by_cases hlk : l.order = x.order
      · rw [if_pos hlk]
        exact fun hline => absurd (hline.symm.trans hlk) hk
      · rw [if_neg hlk]
        exact hok.delivery o ho l hl
  · refine Table.forall_update fun l hl => ?_
    obtain ⟨o, ho, hkey⟩ := hok.lineOrder l hl
    have horder : ∃ o' ∈ Table.update Oorder.key x.order
        (fun r => { r with oCarrierId := some x.carrier }) db.oorder, o'.key = l.order := by
      refine ⟨_, Table.mem_update.2 ⟨o, ho, rfl⟩, ?_⟩
      by_cases hk : o.key = x.order
      · rw [if_pos hk]
        exact hkey
      · rw [if_neg hk]
        exact hkey
    by_cases hlk : l.order = x.order
    · rw [if_pos hlk]
      exact horder
    · rw [if_neg hlk]
      exact horder
  · refine Table.forall_update fun o ho => ?_
    have hcount := hok.lineCount o ho
    have hlength : (linesOf (Table.update OrderLine.order x.order
        (fun r => { r with olDeliveryD := some x.now }) db.orderLine) o.key).length =
        (linesOf db.orderLine o.key).length := by
      rw [linesOf_deliver]
      exact List.length_map _
    by_cases hk : o.key = x.order
    · rw [if_pos hk]
      exact ⟨hlength.trans hcount.1, hcount.2⟩
    · rw [if_neg hk]
      exact ⟨hlength.trans hcount.1, hcount.2⟩

theorem orderDelivered_eq (db : Database) (k : Nat × Nat × Nat) :
    orderDelivered db k =
      Table.total OrderLine.delivered OrderLine.olAmount (linesOf db.orderLine k) := by
  simp only [orderDelivered, Table.total, linesOf, List.filter_filter]
  congr 3
  funext l
  exact Bool.and_comm _ _

theorem order_of_mem_linesOf {orderLine : List OrderLine} {k : Nat × Nat × Nat} {l : OrderLine}
    (hl : l ∈ linesOf orderLine k) : l ∈ orderLine ∧ l.order = k := by
  simpa [linesOf] using hl

theorem orderDelivered_deliver (he : Deliverable db x) (h : Sound db) (k : Nat × Nat × Nat) :
    orderDelivered ((Operation.deliver x).apply db) k =
      orderDelivered db k + if k = x.order then x.amount else 0 := by
  rw [orderDelivered_eq, orderDelivered_eq]
  change Table.total _ _ (linesOf (Table.update _ _ _ _) k) = _
  rw [linesOf_deliver]
  by_cases hk : k = x.order
  · subst hk
    have hzero : Table.total OrderLine.delivered OrderLine.olAmount
        (linesOf db.orderLine x.order) = 0 := Table.total_eq_zero fun l hl hdelivered => by
      obtain ⟨hl, horder⟩ := order_of_mem_linesOf hl
      simp [OrderLine.delivered, he.undelivered h l hl horder] at hdelivered
    have hall : Table.update OrderLine.order x.order (fun r => { r with olDeliveryD := some x.now })
        (linesOf db.orderLine x.order) =
        (linesOf db.orderLine x.order).map fun r => { r with olDeliveryD := some x.now } :=
      List.map_congr_left fun l hl => if_pos (order_of_mem_linesOf hl).2
    rw [hzero, hall, if_pos rfl, Int.zero_add, he.total, Table.total, List.filter_eq_self.2,
      List.map_map]
    · rfl
    · intro l hl
      obtain ⟨l', -, rfl⟩ := List.mem_map.1 hl
      rfl
  · have hsame : Table.update OrderLine.order x.order
        (fun r => { r with olDeliveryD := some x.now }) (linesOf db.orderLine k) =
        linesOf db.orderLine k := Table.update_eq_self fun l hl => by
      rw [(order_of_mem_linesOf hl).2]
      exact hk
    rw [hsame, if_neg hk]
    exact (Int.add_zero _).symm

/-- The customer of the order is credited once. -/
theorem customerDelivered_deliver (he : Deliverable db x) (h : Sound db) (k : Nat × Nat × Nat) :
    customerDelivered ((Operation.deliver x).apply db) k =
      customerDelivered db k + if x.customer = k then x.amount else 0 := by
  obtain ⟨o, ho, hkey, hcustomer⟩ := he.order
  have hsame : customerDelivered ((Operation.deliver x).apply db) k =
      Table.total (fun r => r.customer = k)
        (fun r => orderDelivered ((Operation.deliver x).apply db) r.key) db.oorder :=
    Table.total_congr (Table.map_update fun _ => rfl)
  have hadd := @Table.total_add_at _ _ _ Oorder.key x.order db.oorder
    (fun r => decide (r.customer = k)) (fun r => orderDelivered db r.key)
    (fun r => orderDelivered ((Operation.deliver x).apply db) r.key) x.amount h.keyed.oorder o ho
    hkey fun r => orderDelivered_deliver he h r.key
  have hcust : o.customer = x.customer := by
    simp only [Oorder.key, Delivered.order, Prod.mk.injEq] at hkey
    simp [Oorder.customer, Delivered.customer, hkey, hcustomer]
  rw [hsame, hadd, hcust]
  simp [customerDelivered]

theorem deliver_account :
    ((Operation.deliver x).apply db).customer.map Customer.account =
      Table.update Prod.fst x.customer (fun p => (p.1, p.2.1 + x.amount, p.2.2))
        (db.customer.map Customer.account) :=
  Table.map_update_comm (fun _ => rfl) fun _ => rfl

theorem BalancesOk.deliver (he : Deliverable db x) (h : Sound db) :
    BalancesOk (((Operation.deliver x).apply db).customer.map Customer.account)
      ((Operation.deliver x).apply db) := by
  rw [deliver_account]
  refine ⟨?_, ?_⟩
  · refine Table.forall_update fun p hp => ?_
    have hbalance : p.2.1 = customerDelivered db p.1 - customerPaid db p.1 :=
      h.balances.balance p hp
    have hpaid : customerPaid ((Operation.deliver x).apply db) = customerPaid db := rfl
    simp only [customerDelivered_deliver he h, hpaid]
    by_cases hk : p.1 = x.customer
    · rw [if_pos hk, if_pos hk.symm, hbalance]
      exact (add_sub_right_comm _ _ _).symm
    · rw [if_neg hk, if_neg (Ne.symm hk), hbalance, Int.add_zero]
  · refine Table.forall_update fun p hp => ?_
    by_cases hk : p.1 = x.customer
    · rw [if_pos hk]
      exact h.balances.ytd p hp
    · rw [if_neg hk]
      exact h.balances.ytd p hp

theorem Sound.deliver (h : Sound db) (he : Deliverable db x) :
    Sound ((Operation.deliver x).apply db) where
  keyed :=
    { h.keyed with
      customer := by
        rw [show ((Operation.deliver x).apply db).customer.map Customer.key = _ from
          Table.map_update fun _ => rfl]
        exact h.keyed.customer
      oorder := by
        rw [show ((Operation.deliver x).apply db).oorder.map Oorder.key = _ from
          Table.map_update fun _ => rfl]
        exact h.keyed.oorder
      newOrder := h.keyed.newOrder.sublist (List.filter_sublist.map _)
      orderLine := by
        rw [show ((Operation.deliver x).apply db).orderLine.map OrderLine.key = _ from
          Table.map_update fun _ => rfl]
        exact h.keyed.orderLine }
  orders := OrdersOk.deliver he h
  money := h.money
  balances := BalancesOk.deliver he h

end Deliver

/-- The invariant survives every operation that can be done. -/
theorem Sound.apply {db : Database} {op : Operation} (h : Sound db) (he : op.Enabled db) :
    Sound (op.apply db) := by
  cases op with
  | newOrder order lines => exact Sound.newOrder h he
  | payment row cData => exact Sound.payment h he
  | deliver x => exact Sound.deliver h he

end Tpcc.Transaction
