import Tpcc.Isolation.Issued

/-! The statements that the transactions issue, each with what is known of its parameters when it is
executed. -/

namespace Tpcc.Isolation

open Lib Store Transaction Serial

/-- A statement that a transaction of the terminal may execute, after the statements before it. -/
inductive StatementOf (context : TTransactionContext) (o : Statics) :
    List Modify → Modify → Prop
  | updateDistrict {before : List Modify} (d : Draw districtLowId districtHighId) :
    (context.warehouseID, d.val) ∈ o.outline.district →
    StatementOf context o before (.newOrderUpdateDistrict context.warehouseID d.val)
  | insertOorder {before : List Modify} (d : Draw districtLowId districtHighId) (orderId : Nat)
      (c : Draw 1 customersPerDistrict) (olCnt allLocal : Nat) :
    minItems ≤ olCnt → olCnt ≤ maxItems → allLocal ≤ 1 →
    StatementOf context o before
      (.newOrderInsertOorder context.warehouseID d.val orderId c.val olCnt allLocal)
  | insertNewOrder {before : List Modify} (d orderId : Nat) :
    (context.warehouseID, d, orderId) ∈ before.filterMap Modify.order? →
    StatementOf context o before (.newOrderInsertNewOrder context.warehouseID d orderId)
  | updateStock {before : List Modify} (quantity qty : Int) (remote w : Nat) (i : Int) :
    (w, i) ∈ o.outline.stock → 1 ≤ qty → qty ≤ 10 → remote ≤ 1 →
    StatementOf context o before (.newOrderUpdateStock quantity qty remote w i)
  | insertOrderLine {before : List Modify} (d orderId number : Nat) (item : Item) (supply : Nat)
      (qty : Int) (distInfo : String) :
    (context.warehouseID, d, orderId) ∈ before.filterMap Modify.order? → item ∈ o.items →
    (supply, item.iId) ∈ o.outline.stock → 1 ≤ number → number ≤ maxItems → 1 ≤ qty → qty ≤ 10 →
    StatementOf context o before (.newOrderInsertOrderLine context.warehouseID d orderId number
      item.iId (qty * item.iPrice) supply qty distInfo)
  | updateWarehouseYtd {before : List Modify} (amount : Draw 100 500000) :
    context.warehouseID ∈ o.outline.warehouse →
    StatementOf context o before (.paymentUpdateWarehouseYtd amount.val context.warehouseID)
  | updateDistrictYtd {before : List Modify} (amount : Draw 100 500000)
      (d : Draw districtLowId districtHighId) :
    (context.warehouseID, d.val) ∈ o.outline.district →
    StatementOf context o before (.paymentUpdateDistrictYtd amount.val context.warehouseID d.val)
  | updateCustomer {before : List Modify} (amount : Draw 100 500000) (w d c : Nat)
      (cData : Option String) :
    (w, d, c) ∈ o.outline.customer.map Prod.fst → (∀ data ∈ cData, data.length ≤ 500) →
    StatementOf context o before (updateStatement amount.val w d c cData)
  | insertHistory {before : List Modify} (c cd cw : Nat) (d : Draw districtLowId districtHighId)
      (amount : Draw 100 500000) (data : String) :
    (cw, cd, c) ∈ o.outline.customer.map Prod.fst →
    (context.warehouseID, d.val) ∈ o.outline.district → data.length ≤ 24 →
    StatementOf context o before
      (.paymentInsertHistory c cd cw d.val context.warehouseID amount.val data)
  | deleteNewOrder {before : List Modify} (d orderId : Nat) :
    StatementOf context o before (.deliveryDeleteNewOrder context.warehouseID d orderId)
  | updateCarrier {before : List Modify} (carrier : Draw 1 10) (d orderId : Nat) :
    StatementOf context o before
      (.deliveryUpdateCarrier carrier.val context.warehouseID d orderId)
  | updateOrderLineDelivery {before : List Modify} (d orderId : Nat) :
    StatementOf context o before (.deliveryUpdateOrderLineDelivery context.warehouseID d orderId)
  | updateCustomerBalance {before : List Modify} (amount : Money) (d c : Nat) :
    StatementOf context o before
      (.deliveryUpdateCustomerBalance amount context.warehouseID d c)

variable {context : TTransactionContext} {o : Statics} {before : List Modify}

theorem mem_order?_append {k : Nat × Nat × Nat} {m : Modify}
    (h : k ∈ before.filterMap Modify.order?) : k ∈ (before ++ [m]).filterMap Modify.order? := by
  rw [List.filterMap_append]
  exact List.mem_append_left _ h

section NewOrder

variable {P : List Modify → Modify → Prop}

/-- The prices that were read are those of the items. -/
def Priced (o : Statics) (itemPrices : Int → Option Money) : Prop :=
  ∀ i price, itemPrices i = some price → ⟨i, price⟩ ∈ o.items

theorem Issues.selectItems {items : List OrderItem} {itemPrices : Int → Option Money}
    (hprices : Priced o itemPrices) :
    Issues o P (fun prices after => Priced o prices ∧ after = before)
      (selectItems items itemPrices) before := by
  induction items generalizing itemPrices with
  | nil => exact .pure ⟨hprices, rfl⟩
  | cons item rest ih =>
    unfold Transaction.selectItems
    split
    · exact ih hprices
    · refine .select fun db hitem => ?_
      generalize hresult : Query.eval db (.newOrderSelectItem item.itemID) = itemResult
      cases itemResult with
      | none => exact ih hprices
      | some row =>
        refine ih fun i price hprice => ?_
        by_cases hi : i = item.itemID
        · subst hi
          rw [Function.update_self] at hprice
          obtain rfl := Option.some.inj hprice
          obtain ⟨hmem, hkey⟩ := Table.lookup_eq_some hresult
          rw [← hitem, ← hkey]
          exact hmem
        · rw [Function.update_of_ne hi] at hprice
          exact hprices i price hprice

/-- The stock that was read is there. -/
def Stocked (o : Statics) (stocks : Nat × Int → Option Stock) : Prop :=
  ∀ key, (stocks key).isSome → key ∈ o.outline.stock

theorem Stocked.update {stocks : Nat × Int → Option Stock} {key : Nat × Int} {stock : Stock}
    (h : Stocked o stocks) (hkey : key ∈ o.outline.stock) :
    Stocked o (Function.update stocks key (some stock)) := by
  intro key' hsome
  by_cases heq : key' = key
  · rw [heq]
    exact hkey
  · rw [Function.update_of_ne heq] at hsome
    exact h key' hsome

theorem Issues.selectStocks {items : List OrderItem} {stocks : Nat × Int → Option Stock}
    (hstocks : Stocked o stocks) :
    Issues o P (fun stocks after => Stocked o stocks ∧ after = before)
      (selectStocks items stocks) before := by
  induction items generalizing stocks with
  | nil => exact .pure ⟨hstocks, rfl⟩
  | cons item rest ih =>
    unfold Transaction.selectStocks
    dsimp only
    split
    · exact ih hstocks
    · refine .select_forUpdate rfl fun db hdb => ?_
      generalize hresult : Query.eval db (.newOrderSelectStockForUpdate _ _) = stockResult
      cases stockResult with
      | none => exact ih hstocks
      | some row =>
        refine ih (hstocks.update ?_)
        obtain ⟨hmem, hkey⟩ := Table.lookup_eq_some hresult
        rw [← hdb, ← hkey]
        exact List.mem_map_of_mem hmem

theorem Issues.insertOrderLines {d orderId olNum : Nat} {itemPrices : Int → Option Money}
    {items : List OrderItem} {stocks : Nat × Int → Option Stock} (hprices : Priced o itemPrices)
    (hstocks : Stocked o stocks)
    (horder : (context.warehouseID, d, orderId) ∈ before.filterMap Modify.order?)
    (hnumbers : 1 ≤ olNum ∧ olNum + items.length ≤ maxItems + 1)
    (hquantity : ∀ item ∈ items, 1 ≤ item.orderQuantity ∧ item.orderQuantity ≤ 10) :
    Issues o (StatementOf context o) (fun _ _ => True)
      (insertOrderLines context d orderId itemPrices olNum items stocks) before := by
  induction items generalizing olNum stocks before with
  | nil => exact .pure trivial
  | cons item rest ih =>
    unfold Transaction.insertOrderLines
    obtain ⟨⟨hlow, hhigh⟩, hrest⟩ := List.forall_mem_cons.1 hquantity
    rw [List.length_cons] at hnumbers
    dsimp only
    split
    · exact .stop (.pure trivial)
    · next iPrice hprice =>
      split
      · exact .stop (.pure trivial)
      · next stock hstock =>
        have hkey : (item.supplierWarehouseID, item.itemID) ∈ o.outline.stock :=
          hstocks _ (by rw [hstock]; rfl)
        refine .modify (.updateStock _ _ _ _ _ hkey hlow hhigh (by split <;> omega)) ?_
        refine .modify (.insertOrderLine d orderId olNum ⟨item.itemID, iPrice⟩ _ _ _
          (mem_order?_append horder) (hprices _ _ hprice) hkey hnumbers.1 (by omega) hlow hhigh) ?_
        exact ih (hstocks.update hkey) (mem_order?_append (mem_order?_append horder))
          (by omega) hrest

theorem orderItems_quantity {draws : NewOrderDraws context} {item : OrderItem}
    (hitem : item ∈ draws.orderItems) : 1 ≤ item.orderQuantity ∧ item.orderQuantity ≤ 10 := by
  have hdraw : ∀ draw : ItemDraw context,
      1 ≤ draw.orderItem.orderQuantity ∧ draw.orderItem.orderQuantity ≤ 10 := by
    intro draw
    have hbounds := draw.quantity.property
    unfold ItemDraw.orderItem
    dsimp only
    omega
  unfold NewOrderDraws.orderItems at hitem
  split at hitem
  · obtain ⟨j, hj⟩ := List.mem_iff_getElem?.1 hitem
    rw [List.getElem?_modify] at hj
    obtain ⟨item', hitem', heq⟩ := Option.map_eq_some_iff.1 hj
    obtain ⟨draw, -, rfl⟩ := List.mem_map.1 (List.mem_of_getElem? hitem')
    split at heq
    · rw [← heq]
      exact hdraw draw
    · rw [← heq]
      exact hdraw draw
  · obtain ⟨draw, -, rfl⟩ := List.mem_map.1 hitem
    exact hdraw draw

theorem length_orderItems (draws : NewOrderDraws context) :
    draws.orderItems.length = draws.items.length := by
  unfold NewOrderDraws.orderItems
  split
  · rw [List.length_modify, List.length_map]
  · rw [List.length_map]

theorem getNewOrderTask_issues (draws : NewOrderDraws context) :
    Issues o (StatementOf context o) (fun _ _ => True) (getNewOrderTask context draws) [] := by
  have hlength := length_orderItems draws
  obtain ⟨hmin, hmax⟩ := draws.numItems
  refine .select fun _ _ => .select fun _ _ => .select_forUpdate rfl fun db hdb => ?_
  generalize hresult : Query.eval db (.newOrderSelectDistrictForUpdate _ _) = distResult
  cases distResult with
  | none => exact .stop (.pure trivial)
  | some district =>
    have hdistrict : (context.warehouseID, draws.districtID.val) ∈ o.outline.district := by
      obtain ⟨hmem, hkey⟩ := Table.lookup_eq_some hresult
      rw [← hdb, ← hkey]
      exact List.mem_map_of_mem hmem
    have hlocal : draws.allLocal ≤ 1 := by
      unfold NewOrderDraws.allLocal
      split <;> omega
    refine .modify (.updateDistrict draws.districtID hdistrict) ?_
    refine .modify (.insertOorder draws.districtID district.dNextOId draws.customerID _ _
      (by omega) (by omega) hlocal) ?_
    have horder : (context.warehouseID, draws.districtID.val, district.dNextOId) ∈
        ([Modify.newOrderUpdateDistrict context.warehouseID draws.districtID.val] ++
          [Modify.newOrderInsertOorder context.warehouseID draws.districtID.val district.dNextOId
            draws.customerID.val draws.orderItems.length draws.allLocal]).filterMap
          Modify.order? := List.mem_singleton_self _
    refine .modify (.insertNewOrder _ _ horder) ?_
    refine .bind (.mono ?_ (.selectItems fun _ _ hprice => nomatch hprice))
    rintro itemPrices _ ⟨hprices, rfl⟩
    split
    · exact .rollback
    · refine .bind (.mono ?_ (.selectStocks fun _ hstock => nomatch hstock))
      rintro stocks _ ⟨hstocks, rfl⟩
      refine .bind (.mono (fun done after _ => ?_) (.insertOrderLines hprices hstocks
        (mem_order?_append horder) ⟨le_rfl, by omega⟩ fun item => orderItems_quantity))
      split
      · exact .commit
      · exact .pure trivial

end NewOrder

section Payment

theorem length_customerData (c cd cw d w amount : Nat) (cData : String) :
    (customerData c cd cw d w amount cData).length ≤ 500 := by
  unfold customerData
  dsimp only
  split
  · rw [String.length_ofList]
    exact List.length_take_le 500 _
  · next h => exact Nat.not_lt.mp h

theorem length_historyData (warehouseName districtName : String) :
    (historyData warehouseName districtName).length ≤ 24 := by
  unfold historyData
  dsimp only
  split
  · rw [String.length_ofList]
    exact List.length_take_le 24 _
  · next h => exact Nat.not_lt.mp h

/-- The customer that Payment selects is there. -/
theorem Issues.selectCustomer {P : List Modify → Modify → Prop} {w d : Nat}
    {draws : CustomerDraws} :
    Issues o P (fun selected after => after = before ∧
      ∀ customer ∈ selected, (w, d, customer.cId) ∈ o.outline.customer.map Prod.fst)
      (selectCustomer true w d draws) before := by
  have hmem : ∀ db r, statics db = o → r ∈ db.customer →
      r.key ∈ o.outline.customer.map Prod.fst := by
    intro db r hdb hr
    rw [← hdb]
    exact List.mem_map.2 ⟨_, List.mem_map_of_mem hr, rfl⟩
  unfold Transaction.selectCustomer
  split
  · refine .select_forUpdate rfl fun db hdb => .pure ⟨rfl, fun customer hselected => ?_⟩
    unfold selectCustomerFromResultSet at hselected
    have hrow := List.mem_of_getElem? hselected
    have hfilter : customer ∈ db.customer.filter fun r =>
        r.cWId = w ∧ r.cDId = d ∧ r.cLast = draws.lastName :=
      (List.mergeSort_perm _ _).mem_iff.1 hrow
    obtain ⟨hcustomer, hwhere⟩ := List.mem_filter.1 hfilter
    obtain ⟨rfl, rfl, -⟩ := of_decide_eq_true hwhere
    exact hmem db customer hdb hcustomer
  · refine .select_forUpdate rfl fun db hdb => .pure ⟨rfl, fun customer hselected => ?_⟩
    obtain ⟨row, hrow, rfl⟩ := Option.map_eq_some_iff.1 hselected
    obtain ⟨hcustomer, hkey⟩ := Table.lookup_eq_some hrow
    have hin := hmem db row hdb hcustomer
    rw [hkey] at hin
    exact hin

theorem Issues.updateCustomer {draws : PaymentDraws context} {customer : Customer}
    (hkey : (draws.customerHome.1, draws.customerHome.2, customer.cId) ∈
      o.outline.customer.map Prod.fst) :
    Issues o (StatementOf context o) (fun _ _ => True) (updateCustomer context draws customer)
      before := by
  unfold Transaction.updateCustomer
  dsimp only
  split
  · refine .select fun db _ => ⟨?_, trivial⟩
    exact .updateCustomer _ _ _ _ (some _) hkey fun data hdata => by
      obtain rfl := Option.some.inj hdata
      exact length_customerData _ _ _ _ _ _ _
  · exact ⟨.updateCustomer _ _ _ _ none hkey (fun _ hdata => nomatch hdata), trivial⟩

theorem getPaymentTask_issues (draws : PaymentDraws context) :
    Issues o (StatementOf context o) (fun _ _ => True) (getPaymentTask context draws) [] := by
  refine .select_forUpdate rfl fun db hdb => ?_
  generalize hwh : Query.eval db (.paymentSelectWarehouseForUpdate _) = whResult
  cases whResult with
  | none => exact .stop (.pure trivial)
  | some warehouse =>
    have hwarehouse : context.warehouseID ∈ o.outline.warehouse := by
      obtain ⟨hmem, hkey⟩ := Table.lookup_eq_some hwh
      rw [← hdb, ← hkey]
      exact List.mem_map_of_mem hmem
    refine .modify (.updateWarehouseYtd _ hwarehouse) (.select_forUpdate rfl fun db' hdb' => ?_)
    generalize hdist : Query.eval db' (.paymentSelectDistrictForUpdate _ _) = distResult
    cases distResult with
    | none => exact .stop (.pure trivial)
    | some district =>
      have hdistrict : (context.warehouseID, draws.districtID.val) ∈ o.outline.district := by
        obtain ⟨hmem, hkey⟩ := Table.lookup_eq_some hdist
        rw [← hdb', ← hkey]
        exact List.mem_map_of_mem hmem
      refine .modify (.updateDistrictYtd _ _ hdistrict) (.bind (.mono ?_ .selectCustomer))
      rintro selected after ⟨rfl, hcustomer⟩
      cases selected with
      | none => exact .stop (.pure trivial)
      | some customer =>
        have hkey := hcustomer customer rfl
        exact .bind (.mono (fun _ _ _ => .modify (.insertHistory _ _ _ _ _ _ hkey hdistrict
          (length_historyData _ _)) .commit) (.updateCustomer hkey))

end Payment

section Delivery

variable {P : List Modify → Modify → Prop}

theorem Issues.selectOrder {w d : Nat} :
    Issues o P (fun _ after => after = before) (selectOrder w d) before := by
  refine .select fun db _ => ?_
  split
  · exact .pure rfl
  · refine .select fun db' _ => ?_
    split
    · exact .stop (.pure rfl)
    · refine .select fun db'' _ => ?_
      split
      · exact .stop (.pure rfl)
      · exact .pure rfl

theorem Issues.selectOrders {w : Nat} {districts : List Nat} :
    Issues o P (fun _ after => after = before) (selectOrders w districts) before := by
  induction districts with
  | nil => exact .pure rfl
  | cons d rest ih =>
    refine .bind (.mono ?_ .selectOrder)
    rintro order _ rfl
    cases order with
    | none => exact .pure rfl
    | some order =>
      refine .bind (.mono ?_ ih)
      rintro orders _ rfl
      exact .pure rfl

theorem Issues.deliverOrders {carrierID : Draw 1 10} {orders : List (Nat × Option TOrderData)} :
    Issues o (StatementOf context o) (fun _ _ => True)
      (deliverOrders context.warehouseID carrierID.val orders) before := by
  induction orders generalizing before with
  | nil => exact .pure trivial
  | cons entry rest ih =>
    obtain ⟨d, order⟩ := entry
    cases order with
    | none => exact ih
    | some order =>
      exact .modify (.deleteNewOrder _ _) (.modify (.updateCarrier carrierID _ _)
        (.modify (.updateOrderLineDelivery _ _) (.modify (.updateCustomerBalance _ _ _) ih)))

theorem getDeliveryTask_issues (draws : DeliveryDraws) :
    Issues o (StatementOf context o) (fun _ _ => True) (getDeliveryTask context draws) [] := by
  refine .bind (.mono ?_ .selectOrders)
  rintro orders _ rfl
  cases orders with
  | none => exact .pure trivial
  | some orders => exact .bind (.mono (fun _ _ _ => .commit) .deliverOrders)

end Delivery

section Reads

variable {P : List Modify → Modify → Prop}

theorem Issues.selectCustomer_any {forUpdate : Bool} {w d : Nat} {draws : CustomerDraws} :
    Issues o P (fun _ _ => True) (Transaction.selectCustomer forUpdate w d draws) before := by
  unfold Transaction.selectCustomer
  split
  · exact .select fun _ _ => .pure trivial
  · exact .select fun _ _ => .pure trivial

theorem getOrderStatusTask_issues (draws : OrderStatusDraws) :
    Issues o P (fun _ _ => True) (getOrderStatusTask context draws) before := by
  refine .bind (.mono (fun selected _ _ => ?_) .selectCustomer_any)
  cases selected with
  | none => exact .stop (.pure trivial)
  | some customer =>
    refine .select fun _ _ => ?_
    split
    · exact .commit
    · exact .select fun _ _ => .commit

theorem getStockLevelTask_issues (draws : StockLevelDraws) :
    Issues o P (fun _ _ => True) (getStockLevelTask context draws) before := by
  refine .select fun _ _ => ?_
  split
  · exact .stop (.pure trivial)
  · exact .select fun _ _ => .commit

end Reads

/-- Whatever its draws, a transaction issues only such statements. -/
theorem taskFunc_issues (draws : Draws context) (type : ETransactionType) :
    Issues o (StatementOf context o) (fun _ _ => True) (type.taskFunc draws) [] := by
  cases type with
  | newOrder => exact getNewOrderTask_issues draws.newOrder
  | delivery => exact getDeliveryTask_issues draws.delivery
  | orderStatus => exact getOrderStatusTask_issues draws.orderStatus
  | payment => exact getPaymentTask_issues draws.payment
  | stockLevel => exact getStockLevelTask_issues draws.stockLevel

section Run

/-- A statement of one of the terminals. -/
def SomeStatement (terminal : TTransactionContext → Prop) (o : Statics) (before : List Modify)
    (m : Modify) : Prop := ∃ context, terminal context ∧ StatementOf context o before m

/-- The transaction that an action starts is one of the terminals'. -/
def Action.Of (terminal : TTransactionContext → Prop) : Action → Prop
  | .start _ context _ _ => terminal context
  | _ => True

theorem Action.Of.issues {terminal : TTransactionContext → Prop} {action : Action}
    (h : action.Of terminal) : action.Issues o (SomeStatement terminal o) := by
  cases action with
  | start id context type draws =>
    exact (taskFunc_issues draws type).weaken fun _ _ hm => ⟨context, h, hm⟩
  | request id snapshot now => trivial
  | abort id => trivial

/-- In every run of the terminals the transactions issue their statements, and every committed state
has what these keep. -/
theorem run_issued (terminal : TTransactionContext → Prop) (actions : List Action)
    {init : Database} {Q : Database → Prop} (hinit : Sound init) (hq : Q init)
    (hkeeps : Keeps (statics init) (SomeStatement terminal (statics init)) Q)
    (hof : ∀ action ∈ actions, action.Of terminal) :
    IssuedInv (statics init) (SomeStatement terminal (statics init)) Q
      ((State.start init).run actions) :=
  (IssuedInv.start hq).run (Inv.start hinit) hkeeps fun action haction => (hof action haction).issues

end Run

end Tpcc.Isolation
