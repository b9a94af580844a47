import Tpcc.Import.Initial
import Tpcc.Isolation.Serial
import Tpcc.Serial.Good

/-! No transaction asks for the stop: what the transactions look for is in the tables after an import,
and it stays there. -/

namespace Tpcc.Serial

open Lib Store Transaction Import

section Outline

/-- The keys that no statement changes, and the last names. -/
structure Outline where
  warehouse : List Nat
  district : List (Nat × Nat)
  customer : List ((Nat × Nat × Nat) × String)
  item : List Int
  stock : List (Nat × Int)
  deriving DecidableEq

def outline (db : Database) : Outline where
  warehouse := db.warehouse.map Warehouse.key
  district := db.district.map District.key
  customer := db.customer.map fun r => (r.key, r.cLast)
  item := db.item.map Item.key
  stock := db.stock.map Stock.key

theorem outline_apply {m : Modify} {now : Nat} {db db' : Database}
    (h : m.apply now db = some db') : outline db' = outline db := by
  cases m with
  | newOrderInsertOorder =>
    obtain ⟨rows, -, rfl⟩ := Option.map_eq_some_iff.1 h
    rfl
  | newOrderInsertNewOrder =>
    obtain ⟨rows, -, rfl⟩ := Option.map_eq_some_iff.1 h
    rfl
  | newOrderInsertOrderLine =>
    obtain ⟨rows, -, rfl⟩ := Option.map_eq_some_iff.1 h
    rfl
  | _ =>
    obtain rfl := Option.some.inj h
    simp only [outline, Outline.mk.injEq, true_and, and_true] <;>
      exact Table.map_update fun _ => rfl

theorem outline_exec (env : Env) (p : Transaction.Task Bool) {s : Run}
    (hworking : outline s.working = outline s.durable) :
    outline (exec env p s).durable = outline s.durable := by
  induction p generalizing s with
  | pure a => rfl
  | throw e => rfl
  | request r next ih =>
    cases r with
    | query q =>
      unfold exec
      split
      · rfl
      · exact ih _ hworking
    | modify m =>
      unfold exec
      split
      · rfl
      · split
        · rfl
        · next db happly => exact ih () ((outline_apply happly).trans hworking)
    | commit =>
      unfold exec
      split
      · split
        · exact hworking
        · rfl
      · exact (ih () rfl).trans hworking
    | rollback =>
      unfold exec
      split
      · rfl
      · exact ih () rfl
    | requestStopWithError => exact ih () hworking

theorem outline_runCalls (calls : List Call) (db : Database) :
    outline (runCalls calls db) = outline db := by
  induction calls generalizing db with
  | nil => rfl
  | cons call calls ih => exact (ih _).trans (outline_exec call.env _ rfl)

end Outline

/-- The rows that the transactions of warehouses up to `warehouseCount` can look for. -/
structure Populated (warehouseCount : Nat) (o : Outline) : Prop where
  warehouse : ∀ w, 1 ≤ w ∧ w ≤ warehouseCount → w ∈ o.warehouse
  district : ∀ p ∈ grid warehouseCount, p ∈ o.district
  customer : ∀ k ∈ orderGrid warehouseCount, k ∈ o.customer.map Prod.fst
  name : ∀ p ∈ grid warehouseCount, ∀ num < 1000, ∀ name, getLastName num = some name →
    ∃ c ∈ o.customer, (c.1.1, c.1.2.1) = p ∧ c.2 = name
  item : ∀ i : Nat, 1 ≤ i ∧ i ≤ itemCount → (i : Int) ∈ o.item
  stock : ∀ w, 1 ≤ w ∧ w ≤ warehouseCount → ∀ i : Nat, 1 ≤ i ∧ i ≤ itemCount →
    (w, (i : Int)) ∈ o.stock

theorem importTables_populated (draws : ImportDraws) (warehouseCount : Nat) :
    Populated warehouseCount (outline (importTables draws warehouseCount)) where
  warehouse w hw := by
    simp only [outline, importTables, loadWarehouses, List.map_map, Nat.add_sub_cancel_right]
    exact List.mem_map.2 ⟨w, List.mem_range'_1.2 (by omega), rfl⟩
  district p hp := by
    simp only [outline]
    rwa [map_key_district]
  customer k hk := by
    rw [← map_key_customer draws] at hk
    simp only [outline, List.map_map]
    exact hk
  name p hp num hnum name hname := by
    have hrow : num + 1 ∈ List.range' 1 customersPerDistrict := by
      rw [List.mem_range'_1]
      simp only [customersPerDistrict]
      omega
    have hlast : customerLast (draws.customer p.1 p.2 (num + 1)) (num + 1) = name := by
      simp only [customerLast, Nat.add_sub_cancel_right, hname]
      rw [if_pos (by omega)]
      rfl
    refine ⟨_, List.mem_map_of_mem (List.mem_flatMap.2 ⟨p, hp, List.mem_map_of_mem hrow⟩), rfl, ?_⟩
    exact hlast
  item i hi := by
    simp only [outline, importTables, loadItems, List.map_map]
    exact List.mem_map.2 ⟨i, List.mem_range'_1.2 (by omega), rfl⟩
  stock w hw i hi := by
    simp only [outline, importTables]
    refine List.mem_map.2 ⟨_, List.mem_flatMap.2 ⟨w, List.mem_range'_1.2 (by omega),
      List.mem_map_of_mem (List.mem_range'_1.2 ⟨hi.1, ?_⟩)⟩, rfl⟩
    omega

section Lookups

variable {warehouseCount : Nat} {db : Database}

theorem Populated.lookup_warehouse (h : Populated warehouseCount (outline db)) {w : Nat}
    (hw : 1 ≤ w ∧ w ≤ warehouseCount) :
    ∃ r, db.warehouse.find? (fun r => r.key = w) = some r :=
  Option.isSome_iff_exists.1 (Table.lookup_isSome.2 (h.warehouse w hw))

theorem Populated.lookup_district (h : Populated warehouseCount (outline db)) {p : Nat × Nat}
    (hp : p ∈ grid warehouseCount) : ∃ r, db.district.find? (fun r => r.key = p) = some r :=
  Option.isSome_iff_exists.1 (Table.lookup_isSome.2 (h.district p hp))

theorem Populated.lookup_customer (h : Populated warehouseCount (outline db)) {k : Nat × Nat × Nat}
    (hk : k ∈ orderGrid warehouseCount) :
    ∃ r, db.customer.find? (fun r => r.key = k) = some r := by
  have hmem := h.customer k hk
  simp only [outline, List.map_map] at hmem
  exact Option.isSome_iff_exists.1 (Table.lookup_isSome.2 hmem)

theorem Populated.lookup_item (h : Populated warehouseCount (outline db)) {i : Nat}
    (hi : 1 ≤ i ∧ i ≤ itemCount) : ∃ r, db.item.find? (fun r => r.key = (i : Int)) = some r :=
  Option.isSome_iff_exists.1 (Table.lookup_isSome.2 (h.item i hi))

theorem Populated.lookup_stock (h : Populated warehouseCount (outline db)) {w i : Nat}
    (hw : 1 ≤ w ∧ w ≤ warehouseCount) (hi : 1 ≤ i ∧ i ≤ itemCount) :
    ∃ r, db.stock.find? (fun r => r.key = (w, (i : Int))) = some r :=
  Option.isSome_iff_exists.1 (Table.lookup_isSome.2 (h.stock w hw i hi))

end Lookups

section Customers

variable {abort : Prop} {warehouseCount : Nat} {db : Database}

/-- The index of the middle is in range. -/
theorem selectCustomerFromResultSet_isSome {customers : List Customer} (h : customers ≠ []) :
    ∃ customer, selectCustomerFromResultSet customers = some customer := by
  have hpos := List.length_pos_of_ne_nil h
  have hlt : (if customers.length % 2 = 0 ∧ customers.length / 2 > 0 then customers.length / 2 - 1
      else customers.length / 2) < customers.length := by
    split <;> omega
  exact ⟨_, List.getElem?_eq_getElem hlt⟩

/-- A last name that the generator of the run draws. -/
def DrawnName (name : String) : Prop :=
  ∃ randomNum randomNum2, getNonUniformRandomLastNameForRun randomNum randomNum2 = some name

theorem Good.selectCustomer {forUpdate : Bool} {w d : Nat} {draws : CustomerDraws}
    {f : Option Customer → Transaction.Task Bool} (hdb : Populated warehouseCount (outline db))
    (hp : (w, d) ∈ grid warehouseCount) (hname : DrawnName draws.lastName)
    (h : ∀ customer, Good abort (f (some customer)) db) :
    Good abort (selectCustomer forUpdate w d draws >>= f) db := by
  unfold Transaction.selectCustomer
  split
  · obtain ⟨randomNum, randomNum2, hname⟩ := hname
    have hnum := (@nonUniformRandom_range _ _ _ cLastRunC randomNum randomNum2).2
    obtain ⟨c, hc, hhome, hlast⟩ := hdb.name (w, d) hp _ (Nat.lt_succ_of_le hnum) _ hname
    obtain ⟨r, hr, rfl⟩ := List.mem_map.1 hc
    have hne : Query.eval db (.customerSelectByLastName forUpdate w d draws.lastName) ≠ [] := by
      refine List.ne_nil_of_mem ((List.mergeSort_perm _ _).mem_iff.2 (List.mem_filter.2 ⟨hr, ?_⟩))
      simp only [Customer.key, Prod.mk.injEq] at hhome hlast
      simp [hhome, hlast]
    obtain ⟨customer, hcustomer⟩ := selectCustomerFromResultSet_isSome hne
    change Good abort (f (selectCustomerFromResultSet _)) db
    rw [hcustomer]
    exact h customer
  · have hk : (w, d, draws.customerID.val) ∈ orderGrid warehouseCount :=
      mem_orderGrid.2 ⟨hp, draws.customerID.property⟩
    obtain ⟨r, hr⟩ := hdb.lookup_customer hk
    change Good abort (f (Option.map _ (db.customer.find? _))) db
    rw [hr]
    exact h _

end Customers

section Tasks

variable {abort : Prop} {warehouseCount : Nat} {db : Database} {context : TTransactionContext}

/-- A statement that cannot fail. -/
theorem Good.update {m : Modify} {f : Unit → Transaction.Task Bool}
    (hdb : Populated warehouseCount (outline db)) (hsome : ∀ now, (m.apply now db).isSome)
    (h : ∀ db' now, m.apply now db = some db' → Populated warehouseCount (outline db') →
      Good abort (f ()) db') : Good abort (executeModify m >>= f) db := by
  refine .modify fun now => ?_
  obtain ⟨db', happly⟩ := Option.isSome_iff_exists.1 (hsome now)
  exact ⟨db', happly, h db' now happly (outline_apply happly ▸ hdb)⟩

theorem getPaymentTask_good {draws : PaymentDraws context}
    (hdb : Populated warehouseCount (outline db)) (hcount : context.warehouseCount ≤ warehouseCount)
    (hhome : 1 ≤ context.warehouseID ∧ context.warehouseID ≤ context.warehouseCount)
    (hname : DrawnName draws.customer.lastName) :
    Good abort (getPaymentTask context draws) db := by
  have hw : 1 ≤ context.warehouseID ∧ context.warehouseID ≤ warehouseCount :=
    ⟨hhome.1, Nat.le_trans hhome.2 hcount⟩
  have hd : (context.warehouseID, draws.districtID.val) ∈ grid warehouseCount :=
    mem_grid.2 ⟨hw, draws.districtID.property⟩
  have hcustomer : (draws.customerHome.1, draws.customerHome.2) ∈ grid warehouseCount := by
    unfold PaymentDraws.customerHome
    split
    · exact hd
    · exact mem_grid.2 ⟨⟨draws.remote.warehouse.property.1,
        Nat.le_trans draws.remote.warehouse.property.2 hcount⟩, draws.remoteDistrictID.property⟩
  refine .select ?_
  obtain ⟨warehouse, hwarehouse⟩ := hdb.lookup_warehouse hw
  rw [show Query.eval db (.paymentSelectWarehouseForUpdate context.warehouseID) = some warehouse
    from hwarehouse]
  refine .update hdb (fun _ => rfl) fun db₁ _ _ hdb₁ => .select ?_
  obtain ⟨district, hdistrict⟩ := hdb₁.lookup_district hd
  rw [show Query.eval db₁ (.paymentSelectDistrictForUpdate context.warehouseID
    draws.districtID.val) = some district from hdistrict]
  refine .update hdb₁ (fun _ => rfl) fun db₂ _ _ hdb₂ => ?_
  refine .selectCustomer hdb₂ hcustomer hname fun customer => ?_
  unfold updateCustomer
  dsimp only
  split
  · refine .select (.update hdb₂ (fun _ => rfl) fun db₃ _ _ hdb₃ => ?_)
    exact .update hdb₃ (fun _ => rfl) fun db₄ _ _ _ => .commit
  · refine .update hdb₂ (fun _ => rfl) fun db₃ _ _ hdb₃ => ?_
    exact .update hdb₃ (fun _ => rfl) fun db₄ _ _ _ => .commit

theorem getOrderStatusTask_good {draws : OrderStatusDraws}
    (hdb : Populated warehouseCount (outline db)) (hcount : context.warehouseCount ≤ warehouseCount)
    (hhome : 1 ≤ context.warehouseID ∧ context.warehouseID ≤ context.warehouseCount)
    (hname : DrawnName draws.customer.lastName) :
    Good abort (getOrderStatusTask context draws) db := by
  have hd : (context.warehouseID, draws.districtID.val) ∈ grid warehouseCount :=
    mem_grid.2 ⟨⟨hhome.1, Nat.le_trans hhome.2 hcount⟩, draws.districtID.property⟩
  refine .selectCustomer hdb hd hname fun customer => .select ?_
  generalize Query.eval db (.orderStatusSelectLatestOrder _ _ _) = orderResult
  cases orderResult with
  | none => exact .commit
  | some order => exact .select .commit

theorem getStockLevelTask_good {draws : StockLevelDraws}
    (hdb : Populated warehouseCount (outline db)) (hcount : context.warehouseCount ≤ warehouseCount)
    (hhome : 1 ≤ context.warehouseID ∧ context.warehouseID ≤ context.warehouseCount) :
    Good abort (getStockLevelTask context draws) db := by
  have hd : (context.warehouseID, draws.districtID.val) ∈ grid warehouseCount :=
    mem_grid.2 ⟨⟨hhome.1, Nat.le_trans hhome.2 hcount⟩, draws.districtID.property⟩
  refine .select ?_
  obtain ⟨district, hdistrict⟩ := hdb.lookup_district hd
  rw [show Query.eval db (.stockLevelSelectDistrict context.warehouseID draws.districtID.val) =
    some district from hdistrict]
  exact .select .commit

theorem Good.selectOrder {w d : Nat} {f : Option (Option TOrderData) → Transaction.Task Bool}
    (hsound : Sound db) (h : ∀ order, Good abort (f (some order)) db) :
    Good abort (selectOrder w d >>= f) db := by
  unfold Transaction.selectOrder
  rw [Program.bind_assoc]
  refine .select ?_
  generalize hresult : Query.eval db (.deliverySelectNewOrderForUpdate d w) = noResult
  cases noResult with
  | none => exact h none
  | some n =>
    obtain ⟨hn, hkey, -⟩ := Isolation.first_eq hsound hresult
    obtain ⟨first, next, hfirst, hle, hlt, hids, -⟩ :=
      Isolation.ids_of_newOrder hsound (List.mem_map.2 ⟨n, hn, hkey⟩)
    have hid : n.noOId ∈ orderIds db.oorder (w, d) := by
      rw [hids, List.mem_range'_1]
      omega
    have hmem := Isolation.mem_orderIds.1 hid
    obtain ⟨order, horder⟩ := Option.isSome_iff_exists.1 (Table.lookup_isSome.2 hmem)
    dsimp only
    rw [Program.bind_assoc]
    refine .select ?_
    rw [show Query.eval db (.deliverySelectOrderCustomer w d n.noOId) = some order from horder]
    dsimp only
    rw [Program.bind_assoc]
    refine .select ?_
    obtain ⟨o, ho, hokey⟩ := List.mem_map.1 hmem
    have hlines := hsound.orders.lineCount o ho
    rw [hokey] at hlines
    have hne : ¬List.isEmpty (Query.eval db (.deliverySelectOrderLines w d n.noOId)) = true := by
      intro hempty
      have hnil : linesOf db.orderLine (w, d, n.noOId) = [] := List.isEmpty_iff.1 hempty
      rw [hnil, List.length_nil] at hlines
      omega
    rw [if_neg hne]
    exact h _

theorem Good.selectOrders {w : Nat} {ds : List Nat}
    {f : Option (List (Nat × Option TOrderData)) → Transaction.Task Bool} (hsound : Sound db)
    (h : ∀ orders, Good abort (f (some orders)) db) :
    Good abort (selectOrders w ds >>= f) db := by
  induction ds generalizing f with
  | nil => exact h []
  | cons d ds ih =>
    unfold Transaction.selectOrders
    rw [Program.bind_assoc]
    refine .selectOrder hsound fun order => ?_
    dsimp only
    rw [Program.bind_assoc]
    exact ih fun orders => h ((d, order) :: orders)

theorem Good.deliverOrders {w carrierID : Nat} {orders : List (Nat × Option TOrderData)}
    {f : Unit → Transaction.Task Bool} (h : ∀ db, Good abort (f ()) db) :
    Good abort (deliverOrders w carrierID orders >>= f) db := by
  induction orders generalizing db with
  | nil => exact h db
  | cons entry rest ih =>
    obtain ⟨d, order⟩ := entry
    cases order with
    | none => exact ih
    | some order =>
      exact fun _ => ⟨_, rfl, fun _ => ⟨_, rfl, fun _ => ⟨_, rfl, fun _ => ⟨_, rfl, ih⟩⟩⟩⟩

theorem getDeliveryTask_good {draws : DeliveryDraws} (hsound : Sound db) :
    Good abort (getDeliveryTask context draws) db :=
  .selectOrders hsound fun _ => .deliverOrders fun _ => .commit

end Tasks

section NewOrder

variable {abort : Prop} {warehouseCount : Nat} {db : Database} {context : TTransactionContext}

theorem Good.selectItems {items : List OrderItem} {itemPrices : Int → Option Money}
    {f : (Int → Option Money) → Transaction.Task Bool}
    (hdb : Populated warehouseCount (outline db))
    (hitems : ∀ item ∈ items, item.itemID ≠ invalidItemId →
      ∃ i : Nat, (1 ≤ i ∧ i ≤ itemCount) ∧ item.itemID = i)
    (h : ∀ itemPrices',
      (∀ item ∈ items, item.itemID ≠ invalidItemId → (itemPrices' item.itemID).isSome) →
      (∀ i, (itemPrices i).isSome → (itemPrices' i).isSome) → Good abort (f itemPrices') db) :
    Good abort (selectItems items itemPrices >>= f) db := by
  induction items generalizing itemPrices with
  | nil => exact h itemPrices nofun fun _ hi => hi
  | cons item rest ih =>
    have hrest : ∀ item ∈ rest, item.itemID ≠ invalidItemId →
        ∃ i : Nat, (1 ≤ i ∧ i ≤ itemCount) ∧ item.itemID = i :=
      fun item' hmem => hitems item' (List.mem_cons_of_mem item hmem)
    unfold Transaction.selectItems
    split
    · next hinvalid =>
      refine ih hrest fun itemPrices' hall hmono => h itemPrices' (fun item' hmem hvalid => ?_) hmono
      rcases List.mem_cons.1 hmem with rfl | hmem
      · exact absurd hinvalid hvalid
      · exact hall item' hmem hvalid
    · next hvalid =>
      obtain ⟨i, hi, hitem⟩ := hitems item List.mem_cons_self hvalid
      obtain ⟨row, hrow⟩ := hdb.lookup_item hi
      rw [Program.bind_assoc]
      refine .select ?_
      rw [show Query.eval db (.newOrderSelectItem item.itemID) = some row by
        rw [hitem]
        exact hrow]
      refine ih hrest fun itemPrices' hall hmono => h itemPrices' (fun item' hmem hvalid' => ?_) ?_
      · rcases List.mem_cons.1 hmem with rfl | hmem
        · exact hmono _ (by rw [Function.update_self]; rfl)
        · exact hall item' hmem hvalid'
      · intro i' hi'
        refine hmono i' ?_
        by_cases heq : i' = item.itemID
        · rw [heq, Function.update_self]
          rfl
        · rwa [Function.update_of_ne heq]

theorem Good.selectStocks {items : List OrderItem} {stocks : Nat × Int → Option Stock}
    {f : (Nat × Int → Option Stock) → Transaction.Task Bool}
    (hitems : ∀ item ∈ items, ∃ row,
      db.stock.find? (fun r => r.key = (item.supplierWarehouseID, item.itemID)) = some row)
    (h : ∀ stocks',
      (∀ item ∈ items, (stocks' (item.supplierWarehouseID, item.itemID)).isSome) →
      (∀ key, (stocks key).isSome → (stocks' key).isSome) → Good abort (f stocks') db) :
    Good abort (selectStocks items stocks >>= f) db := by
  induction items generalizing stocks with
  | nil => exact h stocks nofun fun _ hkey => hkey
  | cons item rest ih =>
    have hrest := fun item' hmem => hitems item' (List.mem_cons_of_mem item hmem)
    unfold Transaction.selectStocks
    dsimp only
    split
    · next hsome =>
      refine ih hrest fun stocks' hall hmono => h stocks' (fun item' hmem => ?_) hmono
      rcases List.mem_cons.1 hmem with rfl | hmem
      · exact hmono _ hsome
      · exact hall item' hmem
    · obtain ⟨row, hrow⟩ := hitems item List.mem_cons_self
      rw [Program.bind_assoc]
      refine .select ?_
      rw [show Query.eval db (.newOrderSelectStockForUpdate item.supplierWarehouseID item.itemID) =
        some row from hrow]
      refine ih hrest fun stocks' hall hmono => h stocks' (fun item' hmem => ?_) ?_
      · rcases List.mem_cons.1 hmem with rfl | hmem
        · exact hmono _ (by rw [Function.update_self]; rfl)
        · exact hall item' hmem
      · intro key hkey
        refine hmono key ?_
        by_cases heq : key = (item.supplierWarehouseID, item.itemID)
        · rw [heq, Function.update_self]
          rfl
        · rwa [Function.update_of_ne heq]

theorem Good.insertOorder {w d o c olCnt allLocal : Nat} {f : Unit → Transaction.Task Bool}
    (hfresh : (w, d, o) ∉ db.oorder.map Oorder.key)
    (h : Good abort (f ()) { db with
      oorder := db.oorder ++ [⟨w, d, o, c, none, olCnt, allLocal⟩] }) :
    Good abort (executeModify (.newOrderInsertOorder w d o c olCnt allLocal) >>= f) db :=
  .modify fun _ => ⟨_, Option.map_eq_some_iff.2 ⟨_, Table.insert_of_not_mem hfresh, rfl⟩, h⟩

theorem Good.insertNewOrder {w d o : Nat} {f : Unit → Transaction.Task Bool}
    (hfresh : (w, d, o) ∉ db.newOrder.map NewOrder.key)
    (h : Good abort (f ()) { db with newOrder := db.newOrder ++ [⟨w, d, o⟩] }) :
    Good abort (executeModify (.newOrderInsertNewOrder w d o) >>= f) db :=
  .modify fun _ => ⟨_, Option.map_eq_some_iff.2 ⟨_, Table.insert_of_not_mem hfresh, rfl⟩, h⟩

theorem Good.insertOrderLine {w d o number supply : Nat} {i qty : Int} {amount : Money}
    {distInfo : String} {f : Unit → Transaction.Task Bool}
    (hfresh : (w, d, o, number) ∉ db.orderLine.map OrderLine.key)
    (h : Good abort (f ()) { db with
      orderLine := db.orderLine ++ [⟨w, d, o, number, i, none, amount, supply, qty, distInfo⟩] }) :
    Good abort
      (executeModify (.newOrderInsertOrderLine w d o number i amount supply qty distInfo) >>= f)
      db :=
  .modify fun _ => ⟨_, Option.map_eq_some_iff.2 ⟨_, Table.insert_of_not_mem hfresh, rfl⟩, h⟩

theorem Good.insertOrderLines {d o olNum : Nat} {itemPrices : Int → Option Money}
    {items : List OrderItem} {stocks : Nat × Int → Option Stock}
    {f : Bool → Transaction.Task Bool}
    (hprices : ∀ item ∈ items, (itemPrices item.itemID).isSome)
    (hstocks : ∀ item ∈ items, (stocks (item.supplierWarehouseID, item.itemID)).isSome)
    (hfresh : ∀ l ∈ db.orderLine, l.order = (context.warehouseID, d, o) → l.olNumber < olNum)
    (h : ∀ db', Good abort (f true) db') :
    Good abort (insertOrderLines context d o itemPrices olNum items stocks >>= f) db := by
  induction items generalizing db olNum stocks with
  | nil => exact h db
  | cons item rest ih =>
    obtain ⟨iPrice, hprice⟩ := Option.isSome_iff_exists.1 (hprices item List.mem_cons_self)
    obtain ⟨stock, hstock⟩ := Option.isSome_iff_exists.1 (hstocks item List.mem_cons_self)
    unfold Transaction.insertOrderLines
    simp only [hprice, hstock, Program.bind_assoc]
    refine .modify fun _ => ⟨_, rfl, .insertOrderLine ?_ ?_⟩
    · intro hmem
      obtain ⟨l, hl, hkey⟩ := List.mem_map.1 hmem
      simp only [OrderLine.key, Prod.mk.injEq] at hkey
      have hlt := hfresh l hl (by simp [OrderLine.order, hkey])
      omega
    · refine ih (fun item' hmem => hprices item' (List.mem_cons_of_mem item hmem))
        (fun item' hmem => ?_) fun l hl hline => ?_
      · by_cases heq : (item'.supplierWarehouseID, item'.itemID) =
            (item.supplierWarehouseID, item.itemID)
        · rw [heq, Function.update_self]
          rfl
        · rw [Function.update_of_ne heq]
          exact hstocks item' (List.mem_cons_of_mem item hmem)
      · rcases List.mem_append.1 hl with hl | hl
        · have := hfresh l hl hline
          omega
        · obtain rfl := List.mem_singleton.1 hl
          exact Nat.lt_succ_self _

/-- What the draws make of an item of the order. -/
theorem mem_orderItems {draws : NewOrderDraws context} {item : OrderItem}
    (hitem : item ∈ draws.orderItems) :
    (item.itemID ≠ invalidItemId → ∃ i : Nat, (1 ≤ i ∧ i ≤ itemCount) ∧ item.itemID = i) ∧
    (draws.hasInvalidItem = false → item.itemID ≠ invalidItemId) := by
  have hdraw : ∀ draw ∈ draws.items, ∃ i : Nat, (1 ≤ i ∧ i ≤ itemCount) ∧
      draw.orderItem.itemID = i := fun draw _ => ⟨_, draw.itemID.property, rfl⟩
  unfold NewOrderDraws.orderItems at hitem
  split at hitem
  · next hinvalid =>
    refine ⟨fun hvalid => ?_, fun h => absurd h (by simp [hinvalid])⟩
    obtain ⟨j, hj⟩ := List.mem_iff_getElem?.1 hitem
    rw [List.getElem?_modify] at hj
    obtain ⟨item', hitem', heq⟩ := Option.map_eq_some_iff.1 hj
    obtain ⟨draw, hmem, rfl⟩ := List.mem_map.1 (List.mem_of_getElem? hitem')
    split at heq
    · rw [← heq] at hvalid
      exact absurd rfl hvalid
    · rw [← heq]
      exact hdraw draw hmem
  · obtain ⟨draw, hmem, rfl⟩ := List.mem_map.1 hitem
    refine ⟨fun _ => hdraw draw hmem, fun _ => ?_⟩
    obtain ⟨i, -, hi⟩ := hdraw draw hmem
    rw [hi, invalidItemId]
    omega

theorem supplier_range {draw : ItemDraw context}
    (hcount : context.warehouseCount ≤ warehouseCount)
    (hhome : 1 ≤ context.warehouseID ∧ context.warehouseID ≤ context.warehouseCount) :
    1 ≤ draw.orderItem.supplierWarehouseID ∧
      draw.orderItem.supplierWarehouseID ≤ warehouseCount := by
  unfold ItemDraw.orderItem
  dsimp only
  split
  · exact ⟨hhome.1, Nat.le_trans hhome.2 hcount⟩
  · exact ⟨draw.remote.warehouse.property.1,
      Nat.le_trans draw.remote.warehouse.property.2 hcount⟩

theorem getNewOrderTask_good {draws : NewOrderDraws context} (hsound : Sound db)
    (hdb : Populated warehouseCount (outline db)) (hcount : context.warehouseCount ≤ warehouseCount)
    (hhome : 1 ≤ context.warehouseID ∧ context.warehouseID ≤ context.warehouseCount)
    (habort : draws.hasInvalidItem = true → abort) :
    Good abort (getNewOrderTask context draws) db := by
  have hd : (context.warehouseID, draws.districtID.val) ∈ grid warehouseCount :=
    mem_grid.2 ⟨⟨hhome.1, Nat.le_trans hhome.2 hcount⟩, draws.districtID.property⟩
  obtain ⟨district, hdistrict⟩ := hdb.lookup_district hd
  obtain ⟨hmem, hkey⟩ := Table.lookup_eq_some hdistrict
  have hnext : ((context.warehouseID, draws.districtID.val), district.dNextOId) ∈
      db.district.map District.next := List.mem_map.2 ⟨district, hmem, Prod.ext hkey rfl⟩
  refine .select (.select (.select ?_))
  rw [show Query.eval db (.newOrderSelectDistrictForUpdate context.warehouseID
    draws.districtID.val) = some district from hdistrict]
  have hoorder := @next_fresh db ⟨context.warehouseID, draws.districtID.val, district.dNextOId,
    draws.customerID.val, none, draws.orderItems.length, draws.allLocal⟩ hsound hnext
  have hnewOrder := @next_fresh_newOrder db ⟨context.warehouseID, draws.districtID.val,
    district.dNextOId, draws.customerID.val, none, draws.orderItems.length, draws.allLocal⟩ hsound
    hnext
  have hlines := @next_fresh_orderLine db ⟨context.warehouseID, draws.districtID.val,
    district.dNextOId, draws.customerID.val, none, draws.orderItems.length, draws.allLocal⟩ hsound
    hnext
  refine .update hdb (fun _ => rfl) fun db₁ _ happly hdb₁ => ?_
  obtain rfl := Option.some.inj happly
  refine .insertOorder hoorder (.insertNewOrder hnewOrder ?_)
  refine .selectItems hdb₁ (fun item hitem => (mem_orderItems hitem).1) fun itemPrices hprices _ => ?_
  split
  · next hinvalid => exact habort hinvalid
  · next hvalid =>
    have hvalid' : draws.hasInvalidItem = false := by simpa using hvalid
    refine .selectStocks (fun item hitem => ?_) fun stocks hstocks _ => ?_
    · rw [Isolation.orderItems_of_valid hvalid'] at hitem
      obtain ⟨draw, -, rfl⟩ := List.mem_map.1 hitem
      exact hdb₁.lookup_stock (supplier_range hcount hhome) draw.itemID.property
    · refine .insertOrderLines
        (fun item hitem => hprices item hitem ((mem_orderItems hitem).2 hvalid')) hstocks
        (fun l hl hline => absurd hline (hlines l hl)) fun db' => ?_
      exact .commit

end NewOrder

/-- A call as the terminals of a run with `warehouseCount` imported warehouses make it. -/
structure Call.Valid (call : Call) (warehouseCount : Nat) : Prop where
  count : call.context.warehouseCount ≤ warehouseCount
  home : 1 ≤ call.context.warehouseID ∧ call.context.warehouseID ≤ call.context.warehouseCount
  paymentName : DrawnName call.draws.payment.customer.lastName
  orderStatusName : DrawnName call.draws.orderStatus.customer.lastName

theorem taskFunc_good {warehouseCount : Nat} {db : Database} {call : Call} (hsound : Sound db)
    (hdb : Populated warehouseCount (outline db)) (hcall : Call.Valid call warehouseCount) :
    Good True (call.type.taskFunc call.draws) db := by
  unfold ETransactionType.taskFunc
  split
  · exact getNewOrderTask_good hsound hdb hcall.count hcall.home fun _ => trivial
  · exact getDeliveryTask_good hsound
  · exact getOrderStatusTask_good hdb hcall.count hcall.home hcall.orderStatusName
  · exact getPaymentTask_good hdb hcall.count hcall.home hcall.paymentName
  · exact getStockLevelTask_good hdb hcall.count hcall.home

/-- The state after calls from an import has what the transactions look for. -/
theorem runCalls_populated (draws : ImportDraws) (warehouseCount : Nat) (calls : List Call) :
    Populated warehouseCount (outline (runCalls calls (importTables draws warehouseCount))) := by
  rw [outline_runCalls]
  exact importTables_populated draws warehouseCount

/-- Every last name that is drawn at run time is in every district. -/
theorem runCalls_name (draws : ImportDraws) (warehouseCount : Nat) (calls : List Call)
    (randomNum : Draw 0 255) (randomNum2 : Draw 0 999) :
    ∃ name, getNonUniformRandomLastNameForRun randomNum randomNum2 = some name ∧
      ∀ w d, (w, d) ∈ grid warehouseCount →
        ∃ c ∈ (runCalls calls (importTables draws warehouseCount)).customer,
          c.cWId = w ∧ c.cDId = d ∧ c.cLast = name := by
  have hnum := (@nonUniformRandom_range _ _ _ cLastRunC randomNum randomNum2).2
  obtain ⟨name, hname⟩ := getLastName_isSome (Nat.lt_succ_of_le hnum)
  refine ⟨name, hname, fun w d hp => ?_⟩
  obtain ⟨c, hc, hhome, hlast⟩ := (runCalls_populated draws warehouseCount calls).name (w, d) hp _
    (Nat.lt_succ_of_le hnum) name hname
  obtain ⟨r, hr, rfl⟩ := List.mem_map.1 hc
  simp only [Customer.key, Prod.mk.injEq] at hhome
  exact ⟨r, hr, hhome.1, hhome.2, hlast⟩

/-- No transaction asks for the stop; the ids and the indices of the names that are drawn are in
range, and the names exist. -/
theorem runCalls_noStop (draws : ImportDraws) (warehouseCount : Nat) (calls : List Call)
    (call : Call) (hcall : Call.Valid call warehouseCount) :
    (call.run (runCalls calls (importTables draws warehouseCount))).stopRequested = false ∧
    (∀ randomNum randomNum2, 1 ≤ getRandomCustomerID randomNum randomNum2 ∧
      getRandomCustomerID randomNum randomNum2 ≤ customersPerDistrict) ∧
    (∀ randomNum randomNum2, 1 ≤ getRandomItemID randomNum randomNum2 ∧
      getRandomItemID randomNum randomNum2 ≤ itemCount) ∧
    (∀ randomNum randomNum2,
      (getNonUniformRandomLastNameForLoad randomNum randomNum2).isSome) ∧
    ∀ randomNum randomNum2,
      ∃ name, getNonUniformRandomLastNameForRun randomNum randomNum2 = some name ∧
        ∀ w d, (w, d) ∈ grid warehouseCount →
          ∃ c ∈ (runCalls calls (importTables draws warehouseCount)).customer,
            c.cWId = w ∧ c.cDId = d ∧ c.cLast = name := by
  have hsound := Isolation.Sound.runCalls (importTables_sound draws warehouseCount) calls
  have hgood := taskFunc_good hsound (runCalls_populated draws warehouseCount calls) hcall
  refine ⟨exec_noStop call.env (taskFunc_closes call.draws call.type) hgood rfl,
    fun randomNum randomNum2 => nonUniformRandom_range randomNum randomNum2,
    fun randomNum randomNum2 => nonUniformRandom_range randomNum randomNum2,
    fun randomNum randomNum2 => ?_, runCalls_name draws warehouseCount calls⟩
  have hnum := (@nonUniformRandom_range _ _ _ cLastLoadC randomNum randomNum2).2
  obtain ⟨name, hname⟩ := getLastName_isSome (Nat.lt_succ_of_le hnum)
  exact Option.isSome_iff_exists.2 ⟨name, hname⟩

section Sample

/-- An import in which every draw gives the least value and nothing is shuffled. -/
def sampleImport : ImportDraws where
  itemPrice _ := ⟨100, by decide⟩
  warehouseName _ := "W"
  districtName _ _ := "D"
  stockQuantity _ _ := ⟨10, by decide⟩
  stockDist _ _ := []
  customer _ _ _ := ⟨⟨0, by decide⟩, ⟨0, by decide⟩, sampleCustomer.percent, "", ""⟩
  historyData _ _ _ := ""
  order _ _ := ⟨List.range' 1 customersPerDistrict, .refl _, 0, fun _ => sampleCarrier,
    fun _ _ => ⟨sampleItem, ⟨1, by decide⟩, ""⟩⟩
  randomCount _ := ⟨5, by decide⟩

/-- A call in which no request fails. -/
def sampleCall (type : ETransactionType) (percent : Draw 1 100) : Call :=
  ⟨sampleContext, type, sampleDraws percent, ⟨fun _ => false, false, fun _ => 0⟩⟩

theorem sampleCall_valid (type : ETransactionType) (percent : Draw 1 100) :
    Call.Valid (sampleCall type percent) 1 := by
  have hname : DrawnName "ABLEABLEPRI" := ⟨⟨0, by decide⟩, ⟨0, by decide⟩, by decide⟩
  exact ⟨Nat.le_refl 1, ⟨Nat.le_refl 1, Nat.le_refl 1⟩, hname, hname⟩

end Sample

theorem runCalls_noStop_payment :
    Call.Valid (sampleCall .payment ⟨2, by decide⟩) 1 ∧
    ((sampleCall .payment ⟨2, by decide⟩).run
      (runCalls [sampleCall .newOrder ⟨2, by decide⟩] (importTables sampleImport 1))).stopRequested =
      false :=
  ⟨sampleCall_valid _ _, (runCalls_noStop sampleImport 1 [sampleCall .newOrder ⟨2, by decide⟩]
    (sampleCall .payment ⟨2, by decide⟩) (sampleCall_valid _ _)).1⟩

end Tpcc.Serial
