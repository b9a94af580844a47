import Tpcc.Isolation.Repeat

/-! NewOrder, Payment and Delivery commit only when the results of their reads last: what they read is
locked, or never changes. -/

namespace Tpcc.Isolation

open Lib Store Transaction Serial

variable {latest : Prop} {post : Bool → Progress × Database × Prop → Prop} {t : Progress}
  {db : Database}

section NewOrder

theorem Repeats.selectItems {items : List OrderItem} {itemPrices : Int → Option Money}
    {f : (Int → Option Money) → Transaction.Task Bool} (hsound : Sound db)
    (h : ∀ itemPrices' db', Relies t.locks db db' →
      Repeats latest post (f itemPrices') t db' True) :
    Repeats latest post (selectItems items itemPrices >>= f) t db True := by
  induction items generalizing itemPrices db with
  | nil => exact h _ db (.refl _ hsound)
  | cons item rest ih =>
    unfold Transaction.selectItems
    split
    · exact ih hsound h
    · rw [Program.bind_assoc]
      refine .select_plain rfl fun db' seen hrely hitem _ _ =>
        .inl ⟨fun db'' view hrely' hview => ?_, ?_⟩
      · have hitems : view.item = db''.item :=
          congrArg Statics.items (statics_applyStatements hview)
        change Table.lookup Item.key _ view.item = Table.lookup Item.key _ seen.item
        rw [hitems, hrely'.item, hitem]
      · have hrest := fun itemPrices' db'' (hrely' : Relies t.locks db' db'') =>
          h itemPrices' db'' (hrely.trans hrely')
        generalize Query.eval seen (.newOrderSelectItem item.itemID) = itemResult
        cases itemResult with
        | none => exact ih hrely.sound hrest
        | some row => exact ih hrely.sound hrest

theorem Repeats.selectStocks {items : List OrderItem} {stocks : Nat × Int → Option Stock}
    {f : (Nat × Int → Option Stock) → Transaction.Task Bool} (hsound : Sound db)
    (hleaves : Leaves Database.stock t.statements)
    (h : ∀ stocks' t' db', t.locks ⊆ t'.locks → Relies t.locks db db' →
      Repeats latest post (f stocks') t' db' True) :
    Repeats latest post (selectStocks items stocks >>= f) t db True := by
  induction items generalizing stocks t db with
  | nil => exact h _ t db (List.Subset.refl _) (.refl _ hsound)
  | cons item rest ih =>
    unfold Transaction.selectStocks
    dsimp only
    split
    · exact ih hsound hleaves h
    · rw [Program.bind_assoc]
      refine .select_forUpdate rfl fun db' view hrely hview _ => ?_
      have hstock : view.stock = db'.stock := hleaves db' view hview
      have hresult : Query.eval view (.newOrderSelectStockForUpdate item.supplierWarehouseID
          item.itemID) =
          Table.lookup Stock.key (item.supplierWarehouseID, item.itemID) db'.stock := by
        rw [← hstock]
        rfl
      rw [hresult]
      refine ⟨fun db'' view' hrely' hview' => ?_, ?_⟩
      · exact lookup_lasts .stock rfl hrely.sound hleaves
          (fun r hr => List.mem_append_right _ (mem_lock .stock hr)) hrely' hview'
      · have hsub : ∀ rows, t.locks ⊆ (t.lock rows).locks := fun rows =>
          List.subset_append_left _ _
        have hrest : ∀ rows stocks' t' db'', (t.lock rows).locks ⊆ t'.locks →
            Relies (t.lock rows).locks db' db'' →
            Repeats latest post (f stocks') t' db'' True :=
          fun rows stocks' t' db'' hsub' hrely' => h stocks' t' db''
            (List.Subset.trans (hsub rows) hsub') (hrely.trans (hrely'.mono (hsub rows)))
        generalize Table.lookup Stock.key _ db'.stock = stockResult
        cases stockResult with
        | none => exact ih hrely.sound hleaves (hrest _)
        | some row => exact ih hrely.sound hleaves (hrest _)

theorem Repeats.insertOrderLines {context : TTransactionContext} {d o olNum : Nat}
    {itemPrices : Int → Option Money} {items : List OrderItem}
    {stocks : Nat × Int → Option Stock} {f : Bool → Transaction.Task Bool} (hsound : Sound db)
    (h : ∀ done t' db', Relies t.locks db db' → Repeats latest post (f done) t' db' True) :
    Repeats latest post
      (insertOrderLines context d o itemPrices olNum items stocks >>= f) t db True := by
  induction items generalizing olNum stocks t db with
  | nil => exact h true t db (.refl _ hsound)
  | cons item rest ih =>
    unfold Transaction.insertOrderLines
    dsimp only
    split
    · exact .stop fun db' hrely => h false t db' hrely
    · split
      · exact .stop fun db' hrely => h false t db' hrely
      · refine .modify fun db₁ n₁ hrely₁ => .modify fun db₂ n₂ hrely₂ => ?_
        exact ih hrely₂.sound fun done t' db₃ hrely₃ =>
          h done t' db₃ (hrely₁.trans (hrely₂.trans hrely₃))

theorem getNewOrderTask_repeats {context : TTransactionContext} (draws : NewOrderDraws context)
    (db : Database) :
    Repeats latest (fun _ _ => True) (getNewOrderTask context draws) .start db True := by
  refine .select_plain rfl fun db₁ _ _ _ _ _ => .inl ⟨fun _ _ _ _ => trivial, ?_⟩
  refine .select_plain rfl fun db₂ _ _ _ _ _ => .inl ⟨fun _ _ _ _ => trivial, ?_⟩
  refine .select_forUpdate rfl fun db₃ view hrely hview _ => ?_
  obtain rfl := Option.some.inj hview
  refine ⟨fun db' view' hrely' hview' => ?_, ?_⟩
  · exact lookup_lasts .district rfl hrely.sound .nil
      (fun r hr => mem_lock .district hr) hrely' hview'
  · generalize Query.eval db₃ (.newOrderSelectDistrictForUpdate _ _) = distResult
    cases distResult with
    | none => exact .stop fun _ _ => trivial
    | some district =>
      refine .modify fun db₄ n₁ hrely₄ => .modify fun db₅ n₂ hrely₅ => .modify fun db₆ n₃ hrely₆ => ?_
      refine .selectItems hrely₆.sound fun itemPrices db₇ hrely₇ => ?_
      split
      · exact .rollback
      · refine .selectStocks hrely₇.sound ?_ fun stocks t₈ db₈ hsub hrely₈ => ?_
        · refine ((Leaves.nil.execute fun _ _ happly => ?_).execute fun _ _ happly => ?_).execute
            fun _ _ happly => ?_
          · rw [← Option.some.inj happly]
          · obtain ⟨_, -, rfl⟩ := Option.map_eq_some_iff.1 happly
            rfl
          · obtain ⟨_, -, rfl⟩ := Option.map_eq_some_iff.1 happly
            rfl
        · refine .insertOrderLines hrely₈.sound fun done t₉ db₉ _ => ?_
          split
          · exact .commit trivial
          · trivial

end NewOrder

section Payment

variable {locks : List Row} {statements : List (Nat × Modify)}

/-- The customers with a last name, when all of them are locked. -/
theorem byLastName_lasts {w d : Nat} {last : String} {db' view : Database} (hsound : Sound db)
    (hleaves : Leaves Database.customer statements)
    (hlock : ∀ r ∈ orderByFirst
        (db.customer.filter fun r => r.cWId = w ∧ r.cDId = d ∧ r.cLast = last),
      Row.customer r.key ∈ locks)
    (hrely : Relies locks db db') (hview : applyStatements statements db' = some view) :
    Query.eval view (.customerSelectByLastName true w d last) =
      Query.eval db (.customerSelectByLastName true w d last) := by
  have houtline : db'.customer.map (fun r => (r.key, r.cLast)) =
      db.customer.map fun r => (r.key, r.cLast) :=
    congrArg (fun o => Outline.customer (Statics.outline o)) hrely.statics
  have hcustomer : view.customer = db'.customer := hleaves db' view hview
  have hkeys : ∀ rows : List Customer,
      (rows.filter fun r => r.cWId = w ∧ r.cDId = d ∧ r.cLast = last).map Customer.key =
        ((rows.map fun r => (r.key, r.cLast)).filter fun p =>
          p.1.1 = w ∧ p.1.2.1 = d ∧ p.2 = last).map Prod.fst := by
    intro rows
    rw [List.filter_map, List.map_map]
    rfl
  have hnodup : ∀ {rows : List Customer}, (rows.map Customer.key).Nodup →
      ((rows.filter fun r => r.cWId = w ∧ r.cDId = d ∧ r.cLast = last).map Customer.key).Nodup :=
    fun hrows => hrows.sublist (List.filter_sublist.map _)
  have hrows : (db'.customer.filter fun r => r.cWId = w ∧ r.cDId = d ∧ r.cLast = last) =
      db.customer.filter fun r => r.cWId = w ∧ r.cDId = d ∧ r.cLast = last := by
    refine Table.eq_of_lookup (hnodup hsound.keyed.customer) (hnodup hrely.sound.keyed.customer)
      (by rw [hkeys, hkeys, houtline]) fun k hk => ?_
    obtain ⟨r, hr, rfl⟩ := List.mem_map.1 hk
    obtain ⟨hmem, hname⟩ := List.mem_filter.1 hr
    have hlocked := hlock r ((List.mergeSort_perm _ _).mem_iff.2 hr)
    have hsame : Table.lookup Customer.key r.key db'.customer = some r :=
      (TableRef.customer.lookup_of_same (hrely.agree _ hlocked)).trans
        (Table.lookup_of_mem hsound.keyed.customer hmem rfl)
    rw [Table.lookup_of_mem (hnodup hsound.keyed.customer) hr rfl,
      Table.lookup_of_mem (hnodup hrely.sound.keyed.customer)
        (List.mem_filter.2 ⟨(Table.lookup_eq_some hsame).1, hname⟩) rfl]
  change orderByFirst (view.customer.filter _) = orderByFirst (db.customer.filter _)
  rw [hcustomer, hrows]

theorem Repeats.selectCustomer {w d : Nat} {draws : CustomerDraws}
    {f : Option Customer → Transaction.Task Bool} (hleaves : Leaves Database.customer t.statements)
    (h : ∀ selected t' db', t'.statements = t.statements → Relies t.locks db db' →
      (∀ customer, selected = some customer → Row.customer (w, d, customer.cId) ∈ t'.locks) →
      Repeats latest post (f selected) t' db' True) :
    Repeats latest post (selectCustomer true w d draws >>= f) t db True := by
  refine .bind ?_
  unfold Transaction.selectCustomer
  split
  · refine .select_forUpdate rfl fun db' view hrely hview _ => ?_
    have hcustomer : view.customer = db'.customer := hleaves db' view hview
    have hresult : Query.eval view (.customerSelectByLastName true w d draws.lastName) =
        Query.eval db' (.customerSelectByLastName true w d draws.lastName) := by
      change orderByFirst (view.customer.filter _) = orderByFirst (db'.customer.filter _)
      rw [hcustomer]
    rw [hresult]
    refine ⟨fun db'' view' hrely' hview' => ?_, ?_⟩
    · exact byLastName_lasts hrely.sound hleaves
        (fun r hr => List.mem_append_right _ (List.mem_map.2 ⟨r, hr, rfl⟩)) hrely' hview'
    · refine h _ _ db' rfl hrely fun customer hselected => List.mem_append_right _ ?_
      have hmem := List.mem_of_getElem? hselected
      have hname := (List.mem_filter.1 ((List.mergeSort_perm _ _).mem_iff.1 hmem)).2
      simp only [decide_eq_true_eq] at hname
      refine List.mem_map.2 ⟨customer, hmem, ?_⟩
      simp [Customer.key, hname]
  · refine .select_forUpdate rfl fun db' view hrely hview _ => ?_
    have hcustomer : view.customer = db'.customer := hleaves db' view hview
    have hresult : Query.eval view (.customerSelectById true w d draws.customerID.val) =
        Table.lookup Customer.key (w, d, draws.customerID.val) db'.customer := by
      rw [← hcustomer]
      rfl
    rw [hresult]
    refine ⟨fun db'' view' hrely' hview' => ?_, ?_⟩
    · exact lookup_lasts .customer rfl hrely.sound hleaves
        (fun r hr => List.mem_append_right _ (mem_lock .customer hr)) hrely' hview'
    · refine h _ _ db' rfl hrely fun customer hselected => List.mem_append_right _ ?_
      obtain ⟨row, hrow, rfl⟩ := Option.map_eq_some_iff.1 hselected
      exact mem_lock .customer hrow

theorem Repeats.updateCustomer {context : TTransactionContext} {draws : PaymentDraws context}
    {customer : Customer} {f : Unit → Transaction.Task Bool} (hlatest : latest)
    (hleaves : Leaves Database.customer t.statements)
    (hlock : Row.customer (draws.customerHome.1, draws.customerHome.2, customer.cId) ∈ t.locks)
    (h : ∀ now m db', Relies t.locks db db' →
      Repeats latest post (f ()) (t.execute now m) db' True) :
    Repeats latest post (updateCustomer context draws customer >>= f) t db True := by
  unfold Transaction.updateCustomer
  dsimp only
  split
  · rw [Program.bind_assoc]
    refine .select_plain rfl fun db' seen hrely _ _ hseen => .inl ⟨?_, ?_⟩
    · have hcustomer : seen.customer = db'.customer := hleaves db' seen (hseen hlatest)
      have hresult : Query.eval seen (.paymentSelectCustomerData draws.customerHome.1
          draws.customerHome.2 customer.cId) =
          Table.lookup Customer.key (draws.customerHome.1, draws.customerHome.2, customer.cId)
            db'.customer := by
        rw [← hcustomer]
        rfl
      rw [hresult]
      exact fun db'' view hrely' hview =>
        lookup_lasts .customer rfl hrely.sound hleaves (fun _ _ => hlock) hrely' hview
    · exact .modify fun db'' now hrely' => h now _ db'' (hrely.trans hrely')
  · exact .modify fun db' now hrely => h now _ db' hrely

theorem getPaymentTask_repeats {context : TTransactionContext} (draws : PaymentDraws context)
    (db : Database) (hlatest : latest) :
    Repeats latest (fun _ _ => True) (getPaymentTask context draws) .start db True := by
  refine .select_forUpdate rfl fun db₁ view₁ hrely₁ hview₁ _ => ?_
  obtain rfl := Option.some.inj hview₁
  refine ⟨fun db' view' hrely' hview' => ?_, ?_⟩
  · exact lookup_lasts .warehouse rfl hrely₁.sound .nil
      (fun r hr => mem_lock .warehouse hr) hrely' hview'
  · generalize Query.eval db₁ (.paymentSelectWarehouseForUpdate _) = whResult
    cases whResult with
    | none => exact .stop fun _ _ => trivial
    | some warehouse =>
      refine .modify fun db₂ n₁ hrely₂ => ?_
      refine .select_forUpdate rfl fun db₃ view₃ hrely₃ hview₃ _ => ?_
      have hleaves : Leaves Database.district
          [(n₁, Modify.paymentUpdateWarehouseYtd draws.paymentAmount.val context.warehouseID)] :=
        Leaves.nil.execute (t := .start) fun _ _ happly => by rw [← Option.some.inj happly]
      have hresult : Query.eval view₃ (.paymentSelectDistrictForUpdate context.warehouseID
          draws.districtID.val) =
          Table.lookup District.key (context.warehouseID, draws.districtID.val) db₃.district := by
        rw [← hleaves db₃ view₃ hview₃]
        rfl
      rw [hresult]
      refine ⟨fun db' view' hrely' hview' => ?_, ?_⟩
      · exact lookup_lasts .district rfl hrely₃.sound hleaves
          (fun r hr => List.mem_append_right _ (mem_lock .district hr)) hrely' hview'
      · generalize Table.lookup District.key _ db₃.district = distResult
        cases distResult with
        | none => exact .stop fun _ _ => trivial
        | some district =>
          refine .modify fun db₄ n₂ hrely₄ => ?_
          have hcustomers : Leaves Database.customer
              [(n₁, Modify.paymentUpdateWarehouseYtd draws.paymentAmount.val context.warehouseID),
                (n₂, .paymentUpdateDistrictYtd draws.paymentAmount.val context.warehouseID
                  draws.districtID.val)] := by
            refine (Leaves.nil.execute (t := .start) fun _ _ happly => ?_).execute
              fun _ _ happly => ?_
            · rw [← Option.some.inj happly]
            · rw [← Option.some.inj happly]
          refine .selectCustomer hcustomers fun selected t₅ db₅ ht₅ hrely₅ hlock => ?_
          cases selected with
          | none => exact .stop fun _ _ => trivial
          | some customer =>
            refine .updateCustomer hlatest ?_ (hlock customer rfl) fun n₃ m db₆ _ => ?_
            · rw [ht₅]
              exact hcustomers
            · exact .modify fun db₇ n₄ _ => .commit trivial

end Payment

section Delivery

variable {w : Nat}

/-- A district's oldest new order, once it is locked, stays its oldest. -/
theorem newOrder_lasts {db' : Database} {d : Nat} {n : NewOrder} {locks : List Row}
    (hsound : Sound db) (hn : Query.eval db (.deliverySelectNewOrderForUpdate d w) = some n)
    (hlock : Row.newOrder n.key ∈ locks) (hrely : Relies locks db db') :
    Query.eval db' (.deliverySelectNewOrderForUpdate d w) = some n := by
  obtain ⟨hmem, hkey, holdest⟩ := first_eq hsound hn
  obtain ⟨first, next, hfirst, hle, hlt, hids, -⟩ :=
    ids_of_newOrder hsound (List.mem_map.2 ⟨n, hmem, hkey⟩)
  have hid : n.noOId ∈ orderIds db.oorder (w, d) := by
    rw [hids, List.mem_range'_1]
    omega
  obtain ⟨o, ho, hokey⟩ := List.mem_map.1 (mem_orderIds.1 hid)
  have hready : Ready locks db ⟨w, d, n.noOId, o.oCId,
      ((linesOf db.orderLine (w, d, n.noOId)).map OrderLine.olAmount).sum, 0, 0⟩ := by
    refine ⟨?_, holdest, ⟨o, ho, hokey, rfl⟩, rfl⟩
    rw [hkey] at hlock
    exact hlock
  obtain ⟨rest, hrest⟩ := (hready.stable hsound hrely.toRely).deliverable.oldest
  cases hn' : Query.eval db' (.deliverySelectNewOrderForUpdate d w) with
  | none =>
    have hempty : ((db'.newOrder.filter fun r => r.noDId = d ∧ r.noWId = w).mergeSort
        fun r r' => decide (r.noOId ≤ r'.noOId)) = [] := List.head?_eq_none_iff.1 hn'
    have hid' : n.noOId ∈ newOrderIds db'.newOrder (w, d) := by
      rw [hrest]
      exact List.mem_cons_self
    obtain ⟨r, hr, hrkey⟩ := List.mem_map.1 (mem_newOrderIds.1 hid')
    simp only [NewOrder.key, Prod.mk.injEq] at hrkey
    have hmem' : r ∈ db'.newOrder.filter fun r => r.noDId = d ∧ r.noWId = w :=
      List.mem_filter.2 ⟨hr, decide_eq_true ⟨hrkey.2.1, hrkey.1⟩⟩
    have hperm := List.mergeSort_perm (db'.newOrder.filter fun r => r.noDId = d ∧ r.noWId = w)
      fun r r' => decide (r.noOId ≤ r'.noOId)
    rw [hempty] at hperm
    exact absurd (hperm.mem_iff.2 hmem') List.not_mem_nil
  | some n' =>
    obtain ⟨hmem', hkey', rest', hrest'⟩ := first_eq hrely.sound hn'
    have hsame : n'.noOId = n.noOId := (List.cons.inj (hrest'.symm.trans hrest)).1
    have hlookup := hrely.agree.newOrder hlock
    rw [Table.lookup_of_mem hsound.keyed.newOrder hmem rfl,
      Table.lookup_of_mem hrely.sound.keyed.newOrder hmem'
        (by rw [hkey', hkey, hsame])] at hlookup
    exact hlookup

theorem Repeats.selectOrder {d : Nat} {f : Option (Option TOrderData) → Transaction.Task Bool}
    (hstart : t.statements = [])
    (h : ∀ order t' db', t'.statements = [] → Repeats latest post (f (some order)) t' db' True)
    (hnone : ∀ t' db' last, Repeats latest post (f none) t' db' last) :
    Repeats latest post (selectOrder w d >>= f) t db True := by
  unfold Transaction.selectOrder
  rw [Program.bind_assoc]
  refine .select_forUpdate rfl fun db₁ view hrely₁ hview hfound => ?_
  rw [hstart] at hview
  obtain rfl := Option.some.inj hview
  obtain ⟨n, hn⟩ := Option.isSome_iff_exists.1 hfound
  rw [hn]
  refine ⟨fun db' view hrely hview => ?_, ?_⟩
  · rw [show (t.lock _).statements = [] from hstart] at hview
    obtain rfl := Option.some.inj hview
    exact newOrder_lasts hrely₁.sound hn (List.mem_append_right _ List.mem_cons_self) hrely
  refine .select_plain rfl fun db₂ seen hrely₂ _ hseen _ => ?_
  obtain ⟨-, hlater⟩ := hseen hstart
  generalize hresult : Query.eval seen (.deliverySelectOrderCustomer _ _ _) = cidResult
  cases cidResult with
  | none => exact .inr fun last => .stop fun db' _ => hnone _ db' last
  | some order =>
    refine .inl ⟨fun db' view hrely hview => ?_, ?_⟩
    · rw [show (t.lock _).statements = [] from hstart] at hview
      obtain rfl := Option.some.inj hview
      obtain ⟨hmem, hkey⟩ := Table.lookup_eq_some hresult
      obtain ⟨o, ho, hokey, hcustomer⟩ := (hlater.trans hrely.later).orders order hmem
      have hlookup : Query.eval db' (.deliverySelectOrderCustomer w d n.noOId) = some o :=
        Table.lookup_of_mem hrely.sound.keyed.oorder ho (hokey.trans hkey)
      rw [hlookup]
      exact congrArg some hcustomer
    · refine .select_plain rfl fun db₃ seen' hrely₃ _ hseen' _ => ?_
      obtain ⟨hsound', hlater'⟩ := hseen' hstart
      change _ ∨ ∀ last, Repeats latest post ((if (linesOf seen'.orderLine
        (w, d, n.noOId)).isEmpty then _ else _) >>= f) _ _ last
      by_cases hlines : (linesOf seen'.orderLine (w, d, n.noOId)).isEmpty = true
      · rw [if_pos hlines]
        exact .inr fun last => .stop fun db' _ => hnone _ db' last
      · refine .inl ⟨fun db' view hrely hview => ?_, ?_⟩
        · rw [show (t.lock _).statements = [] from hstart] at hview
          obtain rfl := Option.some.inj hview
          obtain ⟨l, hl⟩ := List.exists_mem_of_ne_nil _ (by simpa using hlines)
          obtain ⟨hl, hlorder⟩ := order_of_mem_linesOf hl
          obtain ⟨o, ho, hokey⟩ := hsound'.orders.lineOrder l hl
          have hsame := (hlater'.trans hrely.later).lines o ho
          rw [hokey, hlorder] at hsame
          have hamounts := congrArg (List.map Prod.snd) hsame
          rw [List.map_map, List.map_map] at hamounts
          exact hamounts
        · change Repeats latest post ((if (linesOf seen'.orderLine (w, d, n.noOId)).isEmpty then _
            else _) >>= f) _ _ True
          rw [if_neg hlines]
          exact h _ _ db₃ hstart

theorem Repeats.selectOrders {ds : List Nat}
    {f : Option (List (Nat × Option TOrderData)) → Transaction.Task Bool}
    (hstart : t.statements = [])
    (h : ∀ orders t' db', t'.statements = [] → Repeats latest post (f (some orders)) t' db' True)
    (hnone : ∀ t' db' last, Repeats latest post (f none) t' db' last) :
    Repeats latest post (selectOrders w ds >>= f) t db True := by
  induction ds generalizing t db f with
  | nil => exact h [] t db hstart
  | cons d rest ih =>
    unfold Transaction.selectOrders
    rw [Program.bind_assoc]
    refine .selectOrder hstart (fun order t₁ db₁ hstart₁ => ?_) fun t₁ db₁ last => ?_
    · dsimp only
      rw [Program.bind_assoc]
      exact ih hstart₁ (fun orders t₂ db₂ hstart₂ => h _ t₂ db₂ hstart₂)
        fun t₂ db₂ last => hnone t₂ db₂ last
    · exact hnone t₁ db₁ last

theorem Repeats.deliverOrders {carrierID : Nat} {orders : List (Nat × Option TOrderData)}
    {last : Prop} {f : Unit → Transaction.Task Bool}
    (h : ∀ t' db', Repeats latest post (f ()) t' db' last) :
    Repeats latest post (deliverOrders w carrierID orders >>= f) t db last := by
  induction orders generalizing t db with
  | nil => exact h t db
  | cons entry rest ih =>
    obtain ⟨d, order⟩ := entry
    cases order with
    | none => exact ih
    | some data =>
      unfold Transaction.deliverOrders Transaction.deliverOrder
      simp only [Program.bind_assoc]
      exact .modify fun _ _ _ => .modify fun _ _ _ => .modify fun _ _ _ => .modify fun _ _ _ => ih

theorem getDeliveryTask_repeats {context : TTransactionContext} (draws : DeliveryDraws)
    (db : Database) :
    Repeats latest (fun _ _ => True) (getDeliveryTask context draws) .start db True := by
  refine .selectOrders rfl (fun orders t₁ db₁ _ => ?_) fun _ _ _ => trivial
  exact .deliverOrders fun t₂ db₂ => .commit trivial

end Delivery

section Tasks

variable {context : TTransactionContext}

/-- The transactions that only read commit whatever they have read. -/
theorem taskFunc_repeats (draws : Draws context) {type : ETransactionType} (db : Database)
    (hpayment : type = .payment → latest) :
    ReadOnly (type.taskFunc draws) ∨
      Uniform (type.taskFunc draws) ∧
        Repeats latest (fun _ _ => True) (type.taskFunc draws) .start db True := by
  cases type with
  | newOrder =>
    exact .inr ⟨getNewOrderTask_uniform draws.newOrder, getNewOrderTask_repeats draws.newOrder db⟩
  | delivery =>
    exact .inr ⟨getDeliveryTask_uniform draws.delivery, getDeliveryTask_repeats draws.delivery db⟩
  | orderStatus => exact .inl (getOrderStatusTask_readOnly draws.orderStatus)
  | payment =>
    exact .inr ⟨getPaymentTask_uniform draws.payment,
      getPaymentTask_repeats draws.payment db (hpayment rfl)⟩
  | stockLevel => exact .inl (getStockLevelTask_readOnly draws.stockLevel)

end Tasks

end Tpcc.Isolation
