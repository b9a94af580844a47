import Tpcc.Isolation.Issued

/-! When concurrent transactions ask for the stop: what they look for is in every committed state, but
for the order of a new order that a Delivery reads, which older states do not have. -/

namespace Tpcc.Isolation

open Lib Store Transaction Import Serial

/-- The requests of a transaction that does not ask for the stop.  It starts from committed tables
that the others change, and `written` says whether it has changed rows itself.  The rows come from
tables with the given items, and but for a plain `SELECT` after a change with the given statics.
Before the first change a `SELECT … FOR UPDATE` sees the committed tables, and a plain one as well
when it is `latest`. -/
def quietSpec (o : Statics) (latest : Prop) :
    (r : Request) → (r.Reply → Bool × Database → Prop) → Bool × Database → Prop
  | .query q, post, (written, db) => ∀ db' seen, Sound db' → Later db db' → seen.item = o.items →
    (q.forUpdate = true ∨ written = false → statics seen = o) →
    (written = false → q.forUpdate = true ∨ latest → seen = db') →
    post (q.eval seen) (written, db')
  | .modify _, post, (_, db) => post () (true, db)
  | .commit, _, _ => True
  | .rollback, _, _ => True
  | .requestStopWithError, _, _ => False

def Quiet {α : Type} (o : Statics) (latest : Prop) (post : α → Bool × Database → Prop)
    (p : Transaction.Task α) (written : Bool) (db : Database) : Prop :=
  p.wp (quietSpec o latest) post (written, db)

variable {o : Statics} {latest : Prop}

theorem quietSpec_mono (r : Request) (post post' : r.Reply → Bool × Database → Prop)
    (h : ∀ a s, post a s → post' a s) (s : Bool × Database) (hs : quietSpec o latest r post s) :
    quietSpec o latest r post' s := by
  obtain ⟨written, db⟩ := s
  cases r with
  | query q =>
    exact fun db' seen hsound hlater hitem hstatics hseen =>
      h _ _ (hs db' seen hsound hlater hitem hstatics hseen)
  | modify m => exact h _ _ hs
  | commit => trivial
  | rollback => trivial
  | requestStopWithError => exact hs

section Rules

variable {α β : Type} {post : β → Bool × Database → Prop} {written : Bool} {db db' : Database}

theorem Quiet.bind {p : Transaction.Task α} {f : α → Transaction.Task β}
    (h : Quiet o latest (fun a s => Quiet o latest post (f a) s.1 s.2) p written db) :
    Quiet o latest post (p >>= f) written db :=
  Program.wp_bind quietSpec_mono h

theorem Quiet.mono {post' : β → Bool × Database → Prop} {p : Transaction.Task β}
    (hpost : ∀ a s, post a s → post' a s) (h : Quiet o latest post p written db) :
    Quiet o latest post' p written db :=
  Program.wp_mono quietSpec_mono hpost h

theorem Quiet.pure {a : β} (h : post a (written, db)) :
    Quiet o latest post (Pure.pure a) written db := h

theorem Quiet.select {q : Query} {f : q.Result → Transaction.Task β}
    (h : ∀ db' seen, seen.item = o.items → Quiet o latest post (f (q.eval seen)) written db') :
    Quiet o latest post (executeQuery q >>= f) written db :=
  fun db' seen _ _ hitem _ _ => h db' seen hitem

/-- A `SELECT … FOR UPDATE`, or one before the first change. -/
theorem Quiet.select_statics {q : Query} {f : q.Result → Transaction.Task β}
    (hq : q.forUpdate = true ∨ written = false)
    (h : ∀ db' seen, statics seen = o → Quiet o latest post (f (q.eval seen)) written db') :
    Quiet o latest post (executeQuery q >>= f) written db :=
  fun db' seen _ _ _ hstatics _ => h db' seen (hstatics hq)

/-- Before the first change. -/
theorem Quiet.select_latest {q : Query} {f : q.Result → Transaction.Task β}
    (hq : q.forUpdate = true ∨ latest)
    (h : ∀ db', Sound db' → Later db db' → Quiet o latest post (f (q.eval db')) false db') :
    Quiet o latest post (executeQuery q >>= f) false db := by
  intro db' seen hsound hlater _ _ hseen
  obtain rfl := hseen rfl hq
  exact h seen hsound hlater

theorem Quiet.modify {m : Modify} {f : Unit → Transaction.Task β}
    (h : Quiet o latest post (f ()) true db) :
    Quiet o latest post (executeModify m >>= f) written db := h

theorem Quiet.commit {f : Unit → Transaction.Task β} :
    Quiet o latest post (Transaction.commit >>= f) written db := trivial

theorem Quiet.rollback {f : Unit → Transaction.Task β} :
    Quiet o latest post (Transaction.rollback >>= f) written db := trivial

/-- What the others commit keeps it. -/
theorem Quiet.stable {p : Transaction.Task α} (h : Quiet o latest (fun _ _ => True) p written db)
    (hlater : Later db db') : Quiet o latest (fun _ _ => True) p written db' := by
  induction p generalizing written with
  | pure a => trivial
  | throw e => trivial
  | request r next ih =>
    cases r with
    | query q =>
      exact fun db'' seen hsound hlater' => h db'' seen hsound (hlater.trans hlater')
    | modify m => exact ih () h
    | commit => trivial
    | rollback => trivial
    | requestStopWithError => exact h

end Rules

section Customers

variable {warehouseCount : Nat} {post : Option Customer → Bool × Database → Prop} {written : Bool}
  {db seen : Database}

theorem populated_seen (hpopulated : Populated warehouseCount o.outline)
    (hstatics : statics seen = o) : Populated warehouseCount (outline seen) := by
  rw [show outline seen = o.outline from congrArg Statics.outline hstatics]
  exact hpopulated

/-- Whatever committed state it sees, the lookup by name finds a customer. -/
theorem selectByLastName_isSome (forUpdate : Bool) {w d : Nat} {name : String}
    (hpopulated : Populated warehouseCount (outline seen)) (hp : (w, d) ∈ grid warehouseCount)
    (hname : DrawnName name) :
    ∃ customer, selectCustomerFromResultSet
      (Query.eval seen (.customerSelectByLastName forUpdate w d name)) = some customer := by
  obtain ⟨randomNum, randomNum2, hname⟩ := hname
  have hnum := (@nonUniformRandom_range _ _ _ cLastRunC randomNum randomNum2).2
  obtain ⟨c, hc, hhome, hlast⟩ := hpopulated.name (w, d) hp _ (Nat.lt_succ_of_le hnum) _ hname
  obtain ⟨r, hr, rfl⟩ := List.mem_map.1 hc
  refine selectCustomerFromResultSet_isSome ?_
  refine List.ne_nil_of_mem ((List.mergeSort_perm _ _).mem_iff.2 (List.mem_filter.2 ⟨hr, ?_⟩))
  simp only [Customer.key, Prod.mk.injEq] at hhome hlast
  simp [hhome, hlast]

theorem Quiet.selectCustomer {forUpdate : Bool} {w d : Nat} {draws : CustomerDraws}
    (hpopulated : Populated warehouseCount o.outline) (hp : (w, d) ∈ grid warehouseCount)
    (hname : DrawnName draws.lastName) (hq : forUpdate = true ∨ written = false) :
    Quiet o latest (fun customer s => customer.isSome ∧ s.1 = written)
      (selectCustomer forUpdate w d draws) written db := by
  unfold Transaction.selectCustomer
  split
  · refine .select_statics hq fun db' seen hstatics => ?_
    have hseen := populated_seen hpopulated hstatics
    obtain ⟨customer, hcustomer⟩ := selectByLastName_isSome forUpdate hseen hp hname
    exact .pure ⟨Option.isSome_of_eq_some hcustomer, rfl⟩
  · refine .select_statics hq fun db' seen hstatics => ?_
    have hseen := populated_seen hpopulated hstatics
    obtain ⟨r, hr⟩ := hseen.lookup_customer (mem_orderGrid.2 ⟨hp, draws.customerID.property⟩)
    refine .pure ⟨?_, rfl⟩
    change (Option.map _ (seen.customer.find? _)).isSome
    rw [hr]
    rfl

end Customers

section Tasks

variable {warehouseCount : Nat} {context : TTransactionContext} {db : Database}

/-- The home district of a terminal. -/
theorem home_mem (hcount : context.warehouseCount ≤ warehouseCount)
    (hhome : 1 ≤ context.warehouseID ∧ context.warehouseID ≤ context.warehouseCount)
    (d : Draw districtLowId districtHighId) :
    (context.warehouseID, d.val) ∈ grid warehouseCount :=
  mem_grid.2 ⟨⟨hhome.1, Nat.le_trans hhome.2 hcount⟩, d.property⟩

theorem getOrderStatusTask_quiet {draws : OrderStatusDraws}
    (hpopulated : Populated warehouseCount o.outline)
    (hcount : context.warehouseCount ≤ warehouseCount)
    (hhome : 1 ≤ context.warehouseID ∧ context.warehouseID ≤ context.warehouseCount)
    (hname : DrawnName draws.customer.lastName) :
    Quiet o latest (fun _ _ => True) (getOrderStatusTask context draws) false db := by
  refine .bind (.mono ?_ (.selectCustomer hpopulated (home_mem hcount hhome _) hname (.inr rfl)))
  rintro selected s ⟨hsome, -⟩
  obtain ⟨customer, rfl⟩ := Option.isSome_iff_exists.1 hsome
  refine .select fun db' seen _ => ?_
  split
  · exact .commit
  · exact .select fun _ _ _ => .commit

theorem getStockLevelTask_quiet {draws : StockLevelDraws}
    (hpopulated : Populated warehouseCount o.outline)
    (hcount : context.warehouseCount ≤ warehouseCount)
    (hhome : 1 ≤ context.warehouseID ∧ context.warehouseID ≤ context.warehouseCount) :
    Quiet o latest (fun _ _ => True) (getStockLevelTask context draws) false db := by
  refine .select_statics (.inr rfl) fun db' seen hstatics => ?_
  obtain ⟨district, hdistrict⟩ := (populated_seen hpopulated hstatics).lookup_district
    (home_mem hcount hhome draws.districtID)
  rw [show Query.eval seen (.stockLevelSelectDistrict context.warehouseID draws.districtID.val) =
    some district from hdistrict]
  exact .select fun _ _ _ => .commit

theorem getPaymentTask_quiet {draws : PaymentDraws context}
    (hpopulated : Populated warehouseCount o.outline)
    (hcount : context.warehouseCount ≤ warehouseCount)
    (hhome : 1 ≤ context.warehouseID ∧ context.warehouseID ≤ context.warehouseCount)
    (hname : DrawnName draws.customer.lastName) :
    Quiet o latest (fun _ _ => True) (getPaymentTask context draws) false db := by
  have hd := home_mem hcount hhome draws.districtID
  have hcustomer : (draws.customerHome.1, draws.customerHome.2) ∈ grid warehouseCount := by
    unfold PaymentDraws.customerHome
    split
    · exact hd
    · exact mem_grid.2 ⟨⟨draws.remote.warehouse.property.1,
        Nat.le_trans draws.remote.warehouse.property.2 hcount⟩, draws.remoteDistrictID.property⟩
  refine .select_statics (.inl rfl) fun db₁ seen hstatics => ?_
  obtain ⟨warehouse, hwarehouse⟩ :=
    (populated_seen hpopulated hstatics).lookup_warehouse (mem_grid.1 hd).1
  rw [show Query.eval seen (.paymentSelectWarehouseForUpdate context.warehouseID) = some warehouse
    from hwarehouse]
  refine .modify (.select_statics (.inl rfl) fun db₂ seen' hstatics' => ?_)
  obtain ⟨district, hdistrict⟩ := (populated_seen hpopulated hstatics').lookup_district hd
  rw [show Query.eval seen' (.paymentSelectDistrictForUpdate context.warehouseID
    draws.districtID.val) = some district from hdistrict]
  refine .modify (.bind (.mono ?_ (.selectCustomer hpopulated hcustomer hname (.inl rfl))))
  rintro selected s ⟨hsome, -⟩
  obtain ⟨customer, rfl⟩ := Option.isSome_iff_exists.1 hsome
  unfold updateCustomer
  dsimp only
  split
  · exact .select fun _ _ _ => .modify (.modify .commit)
  · exact .modify (.modify .commit)

end Tasks

section Delivery

variable {w : Nat} {db : Database}

/-- In the latest committed tables a new order has its order and its lines. -/
theorem Quiet.selectOrder {d : Nat} :
    Quiet o True (fun order s => order.isSome ∧ s.1 = false) (selectOrder w d) false db := by
  refine .select_latest (.inl rfl) fun db₁ hsound _ => ?_
  generalize hresult : Query.eval db₁ (.deliverySelectNewOrderForUpdate d w) = noResult
  cases noResult with
  | none => exact .pure ⟨rfl, rfl⟩
  | some n =>
    obtain ⟨hn, hkey, -⟩ := first_eq hsound hresult
    obtain ⟨first, next, hfirst, hle, hlt, hids, -⟩ :=
      ids_of_newOrder hsound (List.mem_map.2 ⟨n, hn, hkey⟩)
    have hid : n.noOId ∈ orderIds db₁.oorder (w, d) := by
      rw [hids, List.mem_range'_1]
      omega
    obtain ⟨o₁, ho₁, hkey₁⟩ := List.mem_map.1 (mem_orderIds.1 hid)
    refine .select_latest (.inr trivial) fun db₂ hsound₂ hlater₂ => ?_
    obtain ⟨o₂, ho₂, hkey₂, -⟩ := hlater₂.orders o₁ ho₁
    obtain ⟨order, horder⟩ := Option.isSome_iff_exists.1 (Table.lookup_isSome.2
      (List.mem_map.2 ⟨o₂, ho₂, hkey₂.trans hkey₁⟩))
    rw [show Query.eval db₂ (.deliverySelectOrderCustomer w d n.noOId) = some order from horder]
    refine .select_latest (.inr trivial) fun db₃ hsound₃ hlater₃ => ?_
    obtain ⟨o₃, ho₃, hkey₃, -⟩ := hlater₃.orders o₂ ho₂
    have hlines := hsound₃.orders.lineCount o₃ ho₃
    rw [hkey₃, hkey₂, hkey₁] at hlines
    have hne : ¬List.isEmpty (Query.eval db₃ (.deliverySelectOrderLines w d n.noOId)) = true := by
      intro hempty
      have hnil : linesOf db₃.orderLine (w, d, n.noOId) = [] := List.isEmpty_iff.1 hempty
      rw [hnil, List.length_nil] at hlines
      omega
    rw [if_neg hne]
    exact .pure ⟨rfl, rfl⟩

theorem Quiet.selectOrders {ds : List Nat} :
    Quiet o True (fun orders s => orders.isSome ∧ s.1 = false) (selectOrders w ds) false db := by
  induction ds generalizing db with
  | nil => exact .pure ⟨rfl, rfl⟩
  | cons d ds ih =>
    refine .bind (.mono ?_ .selectOrder)
    rintro order ⟨_, db₁⟩ ⟨hsome, rfl⟩
    obtain ⟨order, rfl⟩ := Option.isSome_iff_exists.1 hsome
    refine .bind (.mono ?_ ih)
    rintro orders ⟨_, db₂⟩ ⟨hsome, rfl⟩
    obtain ⟨orders, rfl⟩ := Option.isSome_iff_exists.1 hsome
    exact .pure ⟨rfl, rfl⟩

theorem Quiet.deliverOrders {carrierID : Nat} {orders : List (Nat × Option TOrderData)}
    {written : Bool} :
    Quiet o latest (fun _ _ => True) (deliverOrders w carrierID orders) written db := by
  induction orders generalizing written with
  | nil => exact .pure trivial
  | cons entry rest ih =>
    obtain ⟨d, order⟩ := entry
    cases order with
    | none => exact ih
    | some order => exact .modify (.modify (.modify (.modify ih)))

/-- A Delivery whose reads are latest. -/
theorem getDeliveryTask_quiet {context : TTransactionContext} (draws : DeliveryDraws) :
    Quiet o True (fun _ _ => True) (getDeliveryTask context draws) false db := by
  refine .bind (.mono ?_ .selectOrders)
  rintro orders ⟨_, db₁⟩ ⟨hsome, rfl⟩
  obtain ⟨orders, rfl⟩ := Option.isSome_iff_exists.1 hsome
  exact .bind (.mono (fun _ _ _ => .commit) .deliverOrders)

end Delivery

section NewOrder

variable {warehouseCount : Nat} {context : TTransactionContext} {written : Bool} {db : Database}

/-- The entries of a map for some keys, which it keeps when it is filled further. -/
theorem isSome_update {κ α : Type} [DecidableEq κ] {f : κ → Option α} {key key' : κ} {a : α}
    (h : (f key').isSome) : (Function.update f key (some a) key').isSome := by
  by_cases heq : key' = key
  · rw [heq, Function.update_self]
    rfl
  · rwa [Function.update_of_ne heq]

theorem Quiet.selectItems {items : List OrderItem} {itemPrices : Int → Option Money}
    (hpopulated : Populated warehouseCount o.outline)
    (hkey : o.items.map Item.key = o.outline.item)
    (hitems : ∀ item ∈ items, item.itemID ≠ invalidItemId →
      ∃ i : Nat, (1 ≤ i ∧ i ≤ itemCount) ∧ item.itemID = i) :
    Quiet o latest (fun itemPrices' _ =>
        (∀ item ∈ items, item.itemID ≠ invalidItemId → (itemPrices' item.itemID).isSome) ∧
        ∀ i, (itemPrices i).isSome → (itemPrices' i).isSome)
      (selectItems items itemPrices) written db := by
  induction items generalizing itemPrices db with
  | nil => exact .pure ⟨List.forall_mem_nil _, fun _ hi => hi⟩
  | cons item rest ih =>
    have hrest := fun item' hmem => hitems item' (List.mem_cons_of_mem item hmem)
    unfold Transaction.selectItems
    split
    · next hinvalid =>
      refine (ih hrest).mono ?_
      rintro itemPrices' _ ⟨hall, hmono⟩
      refine ⟨fun item' hmem hvalid => ?_, hmono⟩
      rcases List.mem_cons.1 hmem with rfl | hmem
      · exact absurd hinvalid hvalid
      · exact hall item' hmem hvalid
    · next hvalid =>
      obtain ⟨i, hi, hitem⟩ := hitems item List.mem_cons_self hvalid
      refine .select fun db' seen hitems' => ?_
      have hkeys : seen.item.map Item.key = o.outline.item := by rw [hitems', hkey]
      obtain ⟨row, hrow⟩ := Option.isSome_iff_exists.1 (Table.lookup_isSome.2
        (hkeys ▸ hpopulated.item i hi))
      rw [show Query.eval seen (.newOrderSelectItem item.itemID) = some row by
        rw [hitem]
        exact hrow]
      refine (ih hrest).mono ?_
      rintro itemPrices' _ ⟨hall, hmono⟩
      refine ⟨fun item' hmem hvalid' => ?_, ?_⟩
      · rcases List.mem_cons.1 hmem with rfl | hmem
        · exact hmono _ (by rw [Function.update_self]; rfl)
        · exact hall item' hmem hvalid'
      · exact fun i' hi' => hmono i' (isSome_update hi')

theorem Quiet.selectStocks {items : List OrderItem} {stocks : Nat × Int → Option Stock}
    (hpopulated : Populated warehouseCount o.outline)
    (hitems : ∀ item ∈ items, (1 ≤ item.supplierWarehouseID ∧
      item.supplierWarehouseID ≤ warehouseCount) ∧
      ∃ i : Nat, (1 ≤ i ∧ i ≤ itemCount) ∧ item.itemID = i) :
    Quiet o latest (fun stocks' _ =>
        (∀ item ∈ items, (stocks' (item.supplierWarehouseID, item.itemID)).isSome) ∧
        ∀ key, (stocks key).isSome → (stocks' key).isSome)
      (selectStocks items stocks) written db := by
  induction items generalizing stocks db with
  | nil => exact .pure ⟨List.forall_mem_nil _, fun _ hkey => hkey⟩
  | cons item rest ih =>
    have hrest := fun item' hmem => hitems item' (List.mem_cons_of_mem item hmem)
    unfold Transaction.selectStocks
    dsimp only
    split
    · next hsome =>
      refine (ih hrest).mono ?_
      rintro stocks' _ ⟨hall, hmono⟩
      refine ⟨fun item' hmem => ?_, hmono⟩
      rcases List.mem_cons.1 hmem with rfl | hmem
      · exact hmono _ hsome
      · exact hall item' hmem
    · obtain ⟨hw, i, hi, hitem⟩ := hitems item List.mem_cons_self
      refine .select_statics (.inl rfl) fun db' seen hstatics => ?_
      obtain ⟨row, hrow⟩ := (populated_seen hpopulated hstatics).lookup_stock hw hi
      rw [show Query.eval seen (.newOrderSelectStockForUpdate item.supplierWarehouseID item.itemID) =
        some row by
          rw [hitem]
          exact hrow]
      refine (ih hrest).mono ?_
      rintro stocks' _ ⟨hall, hmono⟩
      refine ⟨fun item' hmem => ?_, ?_⟩
      · rcases List.mem_cons.1 hmem with rfl | hmem
        · exact hmono _ (by rw [Function.update_self]; rfl)
        · exact hall item' hmem
      · exact fun key hkey => hmono key (isSome_update hkey)

theorem Quiet.insertOrderLines {d orderId olNum : Nat} {itemPrices : Int → Option Money}
    {items : List OrderItem} {stocks : Nat × Int → Option Stock}
    (hprices : ∀ item ∈ items, (itemPrices item.itemID).isSome)
    (hstocks : ∀ item ∈ items, (stocks (item.supplierWarehouseID, item.itemID)).isSome) :
    Quiet o latest (fun done _ => done = true)
      (insertOrderLines context d orderId itemPrices olNum items stocks) written db := by
  induction items generalizing olNum stocks written with
  | nil => exact .pure rfl
  | cons item rest ih =>
    obtain ⟨iPrice, hprice⟩ := Option.isSome_iff_exists.1 (hprices item List.mem_cons_self)
    obtain ⟨stock, hstock⟩ := Option.isSome_iff_exists.1 (hstocks item List.mem_cons_self)
    unfold Transaction.insertOrderLines
    simp only [hprice, hstock]
    refine .modify (.modify (ih (fun item' hmem => hprices item' (List.mem_cons_of_mem item hmem))
      fun item' hmem => ?_))
    exact isSome_update (hstocks item' (List.mem_cons_of_mem item hmem))

theorem getNewOrderTask_quiet {draws : NewOrderDraws context}
    (hpopulated : Populated warehouseCount o.outline)
    (hkey : o.items.map Item.key = o.outline.item)
    (hcount : context.warehouseCount ≤ warehouseCount)
    (hhome : 1 ≤ context.warehouseID ∧ context.warehouseID ≤ context.warehouseCount) :
    Quiet o latest (fun _ _ => True) (getNewOrderTask context draws) written db := by
  refine .select fun _ _ _ => .select fun _ _ _ =>
    .select_statics (.inl rfl) fun db₁ seen hstatics => ?_
  obtain ⟨district, hdistrict⟩ := (populated_seen hpopulated hstatics).lookup_district
    (home_mem hcount hhome draws.districtID)
  rw [show Query.eval seen (.newOrderSelectDistrictForUpdate context.warehouseID
    draws.districtID.val) = some district from hdistrict]
  refine .modify (.modify (.modify (.bind (.mono ?_ (.selectItems hpopulated hkey
    fun item hitem => (mem_orderItems hitem).1)))))
  rintro itemPrices s ⟨hprices, -⟩
  split
  · exact .rollback
  · next hvalid =>
    have hvalid' : draws.hasInvalidItem = false := by simpa using hvalid
    refine .bind (.mono ?_ (.selectStocks hpopulated fun item hitem => ?_))
    · rintro stocks s' ⟨hstocks, -⟩
      refine .bind (.mono ?_ (.insertOrderLines (fun item hitem =>
        hprices item hitem ((mem_orderItems hitem).2 hvalid')) hstocks))
      rintro done s'' rfl
      exact .commit
    · rw [orderItems_of_valid hvalid'] at hitem
      obtain ⟨draw, -, rfl⟩ := List.mem_map.1 hitem
      exact ⟨supplier_range hcount hhome, _, draw.itemID.property, rfl⟩

end NewOrder

section Run

variable {warehouseCount : Nat} {init : Database} {latestOf : Nat → Prop} {s s' : State}

/-- The terminals of a run with the given number of imported warehouses, with the names that they
draw; a Delivery is made by a transaction whose plain reads are latest. -/
def Action.Quiet (warehouseCount : Nat) (latestOf : Nat → Prop) : Action → Prop
  | .start id context type draws =>
    (context.warehouseCount ≤ warehouseCount ∧
      1 ≤ context.warehouseID ∧ context.warehouseID ≤ context.warehouseCount) ∧
    (DrawnName draws.payment.customer.lastName ∧ DrawnName draws.orderStatus.customer.lastName) ∧
    (type = .delivery → latestOf id)
  | .request id snapshot _ => latestOf id → snapshot = 0
  | .abort _ => True

theorem taskFunc_quiet {context : TTransactionContext} {draws : Draws context}
    {type : ETransactionType} {db : Database} (hpopulated : Populated warehouseCount o.outline)
    (hkey : o.items.map Item.key = o.outline.item)
    (hcount : context.warehouseCount ≤ warehouseCount)
    (hhome : 1 ≤ context.warehouseID ∧ context.warehouseID ≤ context.warehouseCount)
    (hpayment : DrawnName draws.payment.customer.lastName)
    (horderStatus : DrawnName draws.orderStatus.customer.lastName)
    (hdelivery : type = .delivery → latest) :
    Isolation.Quiet o latest (fun _ _ => True) (type.taskFunc draws) false db := by
  cases type with
  | newOrder => exact getNewOrderTask_quiet hpopulated hkey hcount hhome
  | delivery =>
    rw [show latest = True from propext ⟨fun _ => trivial, fun _ => hdelivery rfl⟩]
    exact getDeliveryTask_quiet draws.delivery
  | orderStatus => exact getOrderStatusTask_quiet hpopulated hcount hhome horderStatus
  | payment => exact getPaymentTask_quiet hpopulated hcount hhome hpayment
  | stockLevel => exact getStockLevelTask_quiet hpopulated hcount hhome

/-- No transaction asks for the stop from here on. -/
structure QuietInv (o : Statics) (latestOf : Nat → Prop) (s : State) : Prop where
  latest : s.snapshots[0]? = some s.committed
  statics : ∀ db ∈ s.snapshots, Isolation.statics db = o
  txns : ∀ id t, s.txns id = some t →
    Isolation.Quiet o (latestOf id) (fun _ _ => True) t.task (!t.entries.isEmpty) s.committed

namespace QuietInv

variable {id : Nat} {t : Txn}

theorem committed (h : QuietInv o latestOf s) : s.committed ∈ s.snapshots :=
  List.mem_of_getElem? h.latest

theorem statics_view (h : QuietInv o latestOf s) (hinv : Inv init s) (ht : s.txns id = some t) :
    Isolation.statics (s.view t) = o := by
  obtain ⟨locks, hok⟩ := hinv.txns id t ht
  rw [statics_applyStatements (hok.view hinv.sound)]
  exact h.statics _ h.committed

/-- Before its first change a transaction sees the committed tables as they are. -/
theorem applyWrites_start {db : Database} (hstart : (!t.entries.isEmpty) = false) :
    applyWrites (writes t.entries) db = db := by
  have hentries : t.entries = [] := by simpa using hstart
  rw [hentries]
  rfl

theorem proceed {rows : List Row} (h : QuietInv o latestOf s)
    (ht : Isolation.Quiet o (latestOf id) (fun _ _ => True) t.task (!t.entries.isEmpty)
      s.committed) :
    QuietInv o latestOf ((s.lock id rows).proceed id t) where
  latest := h.latest
  statics := h.statics
  txns other t' ht' := by
    by_cases hid : other = id
    · subst hid
      obtain rfl : t = t' := by simpa [State.proceed] using ht'
      exact ht
    · refine h.txns other t' ?_
      simpa [State.proceed, State.lock, Function.update_of_ne hid] using ht'

theorem finish (h : QuietInv o latestOf s) : QuietInv o latestOf (s.finish id) where
  latest := h.latest
  statics := h.statics
  txns other t' ht' := by
    by_cases hid : other = id
    · subst hid
      simp [State.finish] at ht'
    · refine h.txns other t' ?_
      simpa [State.finish, Function.update_of_ne hid] using ht'

theorem commit (h : QuietInv o latestOf s) (hinv : Inv init s) (hinv' : Inv init (s.commit id t))
    (ht : s.txns id = some t) : QuietInv o latestOf (s.commit id t) where
  latest := rfl
  statics db hdb := by
    rcases List.mem_cons.1 hdb with rfl | hdb
    · exact h.statics_view hinv ht
    · exact h.statics db hdb
  txns other t' ht' := by
    have hlater : Later s.committed (s.view t) :=
      (hinv'.snapshots _ (List.mem_cons_of_mem _ h.committed)).2
    exact ((@finish o latestOf s id h).txns other t' ht').stable hlater

/-- A plain `SELECT`. -/
theorem select {q : Query} {next : q.Result → Transaction.Task Bool} {snapshot : Nat}
    {db : Database} (h : QuietInv o latestOf s) (hinv : Inv init s) (ht : s.txns id = some t)
    (htask : t.task = .request (.query q) next) (hupdate : ¬q.forUpdate = true)
    (hsnapshot : latestOf id → snapshot = 0) (hdb : s.snapshots[snapshot]? = some db) :
    QuietInv o latestOf
      (s.proceed id { t with task := next (q.eval (applyWrites (writes t.entries) db)) }) := by
  have hquiet := h.txns id t ht
  rw [htask] at hquiet
  have hstatics := h.statics db (List.mem_of_getElem? hdb)
  rw [← @lock_nil s id]
  refine h.proceed (hquiet s.committed _ hinv.sound (.refl _) ?_ (fun hstart => ?_)
    fun hstart hlatest => ?_)
  · rw [item_applyWrites]
    exact congrArg Statics.items hstatics
  · rw [applyWrites_start (hstart.resolve_left hupdate)]
    exact hstatics
  · rw [applyWrites_start hstart]
    rw [hsnapshot (hlatest.resolve_left hupdate), h.latest] at hdb
    exact (Option.some.inj hdb).symm

/-- A `SELECT … FOR UPDATE`. -/
theorem selectForUpdate {q : Query} {next : q.Result → Transaction.Task Bool} {rows : List Row}
    (h : QuietInv o latestOf s) (hinv : Inv init s) (ht : s.txns id = some t)
    (htask : t.task = .request (.query q) next) :
    QuietInv o latestOf
      ((s.lock id rows).proceed id { t with task := next (q.eval (s.view t)) }) := by
  have hquiet := h.txns id t ht
  rw [htask] at hquiet
  have hview := h.statics_view hinv ht
  exact h.proceed (hquiet s.committed _ hinv.sound (.refl _) (congrArg Statics.items hview)
    (fun _ => hview) fun hstart _ => applyWrites_start hstart)

theorem request {snapshot now : Nat} (h : QuietInv o latestOf s) (hinv : Inv init s)
    (ht : s.txns id = some t) (hsnapshot : latestOf id → snapshot = 0)
    (hstep : s.request id snapshot now t = some s') : QuietInv o latestOf s' := by
  have hinv' := hinv.request ht hstep
  have hquiet := h.txns id t ht
  unfold State.request at hstep
  split at hstep
  · exact nomatch hstep
  · exact nomatch hstep
  · next q next htask =>
    by_cases hupdate : q.forUpdate = true
    · rw [if_pos hupdate] at hstep
      dsimp only at hstep
      split at hstep
      · obtain rfl := Option.some.inj hstep
        exact h.selectForUpdate hinv ht htask
      · exact nomatch hstep
    · rw [if_neg hupdate] at hstep
      obtain ⟨db, hdb, rfl⟩ := Option.map_eq_some_iff.1 hstep
      exact h.select hinv ht htask hupdate hsnapshot hdb
  · next m next htask =>
    rw [htask] at hquiet
    split at hstep
    · exact nomatch hstep
    · next ws hwrites =>
      split at hstep
      · obtain rfl := Option.some.inj hstep
        refine h.proceed ?_
        have hwritten : (!(t.entries ++ [(⟨now, m, ws⟩ : Entry)]).isEmpty) = true := by simp
        rw [hwritten]
        exact hquiet
      · exact nomatch hstep
  · obtain rfl := Option.some.inj hstep
    exact h.commit hinv hinv' ht
  · obtain rfl := Option.some.inj hstep
    exact h.finish
  · next next htask =>
    rw [htask] at hquiet
    exact hquiet.elim

theorem step {action : Action} (h : QuietInv o latestOf s) (hinv : Inv init s)
    (hpopulated : Populated warehouseCount o.outline)
    (hkey : o.items.map Item.key = o.outline.item) (haction : action.Quiet warehouseCount latestOf)
    (hstep : s.step action = some s') : QuietInv o latestOf s' := by
  cases action with
  | start id context type draws =>
    obtain ⟨⟨hcount, hhome⟩, ⟨hpayment, horderStatus⟩, hdelivery⟩ := haction
    obtain ⟨-, rfl⟩ := step_start hstep
    rw [← @lock_nil s id]
    exact h.proceed
      (taskFunc_quiet hpopulated hkey hcount hhome hpayment horderStatus hdelivery)
  | request id snapshot now =>
    obtain ⟨t, ht, hrequest⟩ := Option.bind_eq_some_iff.1 hstep
    exact h.request hinv ht haction hrequest
  | abort id =>
    obtain ⟨t, -, rfl⟩ := Option.map_eq_some_iff.1 hstep
    exact h.finish

theorem start (init : Database) (latestOf : Nat → Prop) :
    QuietInv (Isolation.statics init) latestOf (.start init) where
  latest := rfl
  statics db hdb := by
    obtain rfl := List.mem_singleton.1 hdb
    rfl
  txns _ _ ht := nomatch ht

theorem run {actions : List Action} (h : QuietInv o latestOf s) (hinv : Inv init s)
    (hpopulated : Populated warehouseCount o.outline)
    (hkey : o.items.map Item.key = o.outline.item)
    (hactions : ∀ action ∈ actions, action.Quiet warehouseCount latestOf) :
    QuietInv o latestOf (s.run actions) := by
  induction actions generalizing s with
  | nil => exact h
  | cons action actions ih =>
    obtain ⟨hfirst, hrest⟩ := List.forall_mem_cons.1 hactions
    change QuietInv o latestOf (((s.step action).getD s).run actions)
    cases hstep : s.step action with
    | none => exact ih h hinv hrest
    | some s' =>
      exact ih (h.step hinv hpopulated hkey hfirst hstep) (hinv.step hstep) hrest

end QuietInv

end Run

end Tpcc.Isolation
