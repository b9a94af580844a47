import Tpcc.Isolation.Spec

/-! A Delivery that commits delivers the oldest new order of each district that has one, whatever the
others commit while it runs: the row of `new_order` is locked when it is read, and what the plain
reads saw of its order has not changed since. -/

namespace Tpcc.Isolation

open Lib Store Transaction

section Ids

theorem mem_newOrderIds {newOrder : List NewOrder} {w d i : Nat} :
    i ∈ newOrderIds newOrder (w, d) ↔ (w, d, i) ∈ newOrder.map NewOrder.key := by
  simp only [newOrderIds, List.mem_map, List.mem_filter, NewOrder.district, NewOrder.key,
    decide_eq_true_eq, Prod.mk.injEq]
  constructor
  · rintro ⟨n, ⟨hn, hw, hd⟩, hi⟩
    exact ⟨n, hn, hw, hd, hi⟩
  · rintro ⟨n, hn, hw, hd, hi⟩
    exact ⟨n, ⟨hn, hw, hd⟩, hi⟩

theorem mem_orderIds {oorder : List Oorder} {w d i : Nat} :
    i ∈ orderIds oorder (w, d) ↔ (w, d, i) ∈ oorder.map Oorder.key := by
  simp only [orderIds, List.mem_map, List.mem_filter, Oorder.district, Oorder.key,
    decide_eq_true_eq, Prod.mk.injEq]
  constructor
  · rintro ⟨o, ⟨ho, hw, hd⟩, hi⟩
    exact ⟨o, ho, hw, hd, hi⟩
  · rintro ⟨o, ho, hw, hd, hi⟩
    exact ⟨o, ⟨ho, hw, hd⟩, hi⟩

variable {db : Database} {w d i : Nat}

/-- The ids of a district that has a new order. -/
theorem ids_of_newOrder (h : Sound db) (hi : (w, d, i) ∈ db.newOrder.map NewOrder.key) :
    ∃ first next, 1 ≤ first ∧ first ≤ i ∧ i < next ∧
      orderIds db.oorder (w, d) = List.range' 1 (next - 1) ∧
      newOrderIds db.newOrder (w, d) = List.range' first (next - first) := by
  obtain ⟨n, hn, hkey⟩ := List.mem_map.1 hi
  obtain ⟨p, hp, hpd⟩ := List.mem_map.1 (h.orders.newOrderDistrict n hn)
  have hdistrict : p.1 = (w, d) := by
    simp only [NewOrder.key, Prod.mk.injEq] at hkey
    rw [hpd]
    simp [NewOrder.district, hkey]
  obtain ⟨-, hids⟩ := h.orders.orders p hp
  obtain ⟨first, hfirst, -, hnids⟩ := h.orders.newOrders p hp
  rw [hdistrict] at hids hnids
  have hmem := mem_newOrderIds.2 hi
  rw [hnids, List.mem_range'_1] at hmem
  exact ⟨first, p.2, hfirst, by omega, by omega, hids, hnids⟩

/-- `ORDER BY no_o_id ASC LIMIT 1` finds the first of the district's new orders. -/
theorem first_eq (h : Sound db) {n : NewOrder}
    (hn : Query.eval db (.deliverySelectNewOrderForUpdate d w) = some n) :
    n ∈ db.newOrder ∧ n.key = (w, d, n.noOId) ∧
      ∃ rest, newOrderIds db.newOrder (w, d) = n.noOId :: rest := by
  have hfilter : (db.newOrder.filter fun r => r.noDId = d ∧ r.noWId = w) =
      db.newOrder.filter fun r => r.district = (w, d) := by
    refine List.filter_congr fun r _ => ?_
    simp [NewOrder.district, and_comm]
  change first (db.newOrder.filter fun r => r.noDId = d ∧ r.noWId = w) = some n at hn
  rw [hfilter, first] at hn
  have hmem : n ∈ db.newOrder.filter fun r => r.district = (w, d) :=
    (List.mergeSort_perm _ _).mem_iff.1 (List.mem_of_mem_head? hn)
  obtain ⟨hn', hdistrict⟩ := List.mem_filter.1 hmem
  have hkey : n.key = (w, d, n.noOId) := by
    simp only [NewOrder.district, decide_eq_true_eq, Prod.mk.injEq] at hdistrict
    simp [NewOrder.key, hdistrict]
  obtain ⟨low, next, -, -, -, -, hids⟩ := ids_of_newOrder h (List.mem_map.2 ⟨n, hn', hkey⟩)
  have hsorted : (db.newOrder.filter fun r => r.district = (w, d)).Pairwise
      fun r r' => decide (r.noOId ≤ r'.noOId) = true := by
    have hrange : (newOrderIds db.newOrder (w, d)).Pairwise (· ≤ ·) := by
      rw [hids]
      exact List.pairwise_le_range'
    rw [newOrderIds, List.pairwise_map] at hrange
    exact hrange.imp fun hle => decide_eq_true hle
  rw [List.mergeSort_of_pairwise hsorted] at hn
  refine ⟨hn', hkey, ?_⟩
  obtain ⟨rest, hrest⟩ : ∃ rest, db.newOrder.filter (fun r => r.district = (w, d)) = n :: rest :=
    List.head?_eq_some_iff.1 hn
  exact ⟨rest.map NewOrder.noOId, by rw [newOrderIds, hrest, List.map_cons]⟩

end Ids

/-- An order whose row of `new_order` is locked and that can be delivered. -/
structure Ready (locks : List Row) (db : Database) (x : Delivered) : Prop where
  locked : Row.newOrder x.order ∈ locks
  deliverable : Deliverable db x

section Ready

variable {locks : List Row} {db db' : Database} {x : Delivered}

theorem Ready.stable (h : Ready locks db x) (hsound : Sound db) (hrely : Rely locks db db') :
    Ready locks db' x := by
  obtain ⟨n, hn, hnkey⟩ := h.deliverable.pending
  have hpending : x.order ∈ db.newOrder.map NewOrder.key := List.mem_map.2 ⟨n, hn, hnkey⟩
  have hpending' : x.order ∈ db'.newOrder.map NewOrder.key := by
    rw [← Table.lookup_isSome, hrely.agree.newOrder h.locked]
    exact Table.lookup_isSome.2 hpending
  refine ⟨h.locked, ?_, ?_, ?_⟩
  · obtain ⟨rest, hrest⟩ := h.deliverable.oldest
    obtain ⟨first, next, hfirst, hle, hlt, hids, hnids⟩ := ids_of_newOrder hsound hpending
    obtain ⟨first', next', hfirst', hle', hlt', -, hnids'⟩ :=
      ids_of_newOrder hrely.sound hpending'
    have hhead : x.orderId = first := by
      rw [hnids, show next - first = (next - first - 1) + 1 by omega, List.range'_succ] at hrest
      exact (List.cons.inj hrest).1.symm
    have hkeep : first' ∈ newOrderIds db.newOrder (x.w, x.d) := by
      have hmem : first' ∈ newOrderIds db'.newOrder (x.w, x.d) := by
        rw [hnids', List.mem_range'_1]
        omega
      have horder : first' ∈ orderIds db.oorder (x.w, x.d) := by
        rw [hids, List.mem_range'_1]
        omega
      obtain ⟨n', hn', hkey'⟩ := List.mem_map.1 (mem_newOrderIds.1 hmem)
      rw [mem_newOrderIds, ← hkey']
      refine hrely.later.newOrders n' hn' ?_
      rw [hkey']
      exact mem_orderIds.1 horder
    rw [hnids, List.mem_range'_1] at hkeep
    have hsame : first' = x.orderId := by omega
    refine ⟨List.range' (first' + 1) (next' - first' - 1), ?_⟩
    rw [hnids', show next' - first' = (next' - first' - 1) + 1 by omega, List.range'_succ, hsame]
    rfl
  · obtain ⟨o, ho, hkey, hcustomer⟩ := h.deliverable.order
    obtain ⟨o', ho', hkey', hcustomer'⟩ := hrely.later.orders o ho
    exact ⟨o', ho', hkey'.trans hkey, hcustomer'.trans hcustomer⟩
  · obtain ⟨o, ho, hkey, -⟩ := h.deliverable.order
    have hlines := congrArg (List.map Prod.snd) (hrely.later.lines o ho)
    rw [List.map_map, List.map_map, hkey] at hlines
    rw [h.deliverable.total]
    exact congrArg List.sum hlines.symm

/-- The delivery of an order leaves those of other districts as they are. -/
theorem Deliverable.deliver {y : Delivered} (h : Deliverable db y)
    (hne : (x.w, x.d) ≠ (y.w, y.d)) : Deliverable ((Operation.deliver x).apply db) y := by
  have horder : y.order ≠ x.order := by
    intro heq
    simp only [Delivered.order, Prod.mk.injEq] at heq
    exact hne (by rw [heq.1, heq.2.1])
  refine ⟨?_, ?_, ?_⟩
  · obtain ⟨rest, hrest⟩ := h.oldest
    refine ⟨rest, ?_⟩
    change newOrderIds (db.newOrder.filter fun r => r.key ≠ x.order) (y.w, y.d) = _
    rw [newOrderIds_filter, if_neg (Ne.symm hne), hrest]
  · obtain ⟨o, ho, hkey, hcustomer⟩ := h.order
    refine ⟨o, Table.mem_update.2 ⟨o, ho, ?_⟩, hkey, hcustomer⟩
    rw [if_neg (by rw [hkey]; exact horder)]
  · rw [h.total]
    change _ = ((linesOf (Table.update _ _ _ _) y.order).map _).sum
    rw [linesOf_deliver, Table.update_eq_self]
    intro l hl
    rw [(order_of_mem_linesOf hl).2]
    exact horder

end Ready

/-- The operations that deliver the orders of a list. -/
def deliverAll (db : Database) (xs : List Delivered) : Database :=
  (xs.map Operation.deliver).foldl Operation.apply db

section Deliver

variable {db : Database} {xs : List Delivered} {y : Delivered}

theorem Deliverable.all (h : Deliverable db y)
    (hne : ∀ x ∈ xs, (x.w, x.d) ≠ (y.w, y.d)) : Deliverable (deliverAll db xs) y := by
  induction xs generalizing db with
  | nil => exact h
  | cons x xs ih =>
    have hhead := Deliverable.deliver h (hne x List.mem_cons_self)
    exact ih hhead fun x' hx' => hne x' (List.mem_cons_of_mem x hx')

theorem enabledAll_deliver (h : ∀ x ∈ xs, Deliverable db x)
    (hnodup : (xs.map fun x => (x.w, x.d)).Nodup) : EnabledAll db (xs.map Operation.deliver) := by
  induction xs generalizing db with
  | nil => trivial
  | cons x xs ih =>
    rw [List.map_cons, List.nodup_cons] at hnodup
    refine ⟨h x List.mem_cons_self, ih (fun y hy => ?_) hnodup.2⟩
    refine Deliverable.deliver (h y (List.mem_cons_of_mem x hy)) fun heq => hnodup.1 ?_
    rw [heq]
    exact List.mem_map_of_mem hy

/-- The statements of `deliverOrders`, and the orders that they deliver. -/
inductive Delivers : List (Nat × Modify) → List Delivered → Prop
  | nil : Delivers [] []
  | snoc {statements : List (Nat × Modify)} {xs : List Delivered} {x : Delivered}
      {n₁ n₂ n₃ : Nat} : Delivers statements xs →
    Delivers
      (statements ++
        [(n₁, .deliveryDeleteNewOrder x.w x.d x.orderId),
          (n₂, .deliveryUpdateCarrier x.carrier x.w x.d x.orderId),
          (x.now, .deliveryUpdateOrderLineDelivery x.w x.d x.orderId),
          (n₃, .deliveryUpdateCustomerBalance x.amount x.w x.d x.customerId)])
      (xs ++ [x])

variable {statements : List (Nat × Modify)}

theorem Delivers.applyStatements_eq (h : Delivers statements xs) (db : Database) :
    applyStatements statements db = some (deliverAll db xs) := by
  induction h with
  | nil => rfl
  | snoc _ ih =>
    rw [applyStatements_append, ih, deliverAll, deliverAll, List.map_append, List.foldl_append]
    rfl

theorem Delivers.records (h : Delivers statements xs) :
    Records (statements.map Prod.snd) (xs.map Operation.deliver) := by
  induction h with
  | nil => exact ⟨rfl, rfl, rfl, rfl⟩
  | snoc _ ih =>
    obtain ⟨horders, hsupplied, hremoved, hcredits⟩ := ih
    constructor
    · rw [List.map_append, List.map_append, List.filterMap_append, List.flatMap_append, horders]
      rfl
    · rw [List.map_append, List.map_append, List.filterMap_append, List.flatMap_append, hsupplied]
      rfl
    · rw [List.map_append, List.map_append, List.filterMap_append, List.flatMap_append, hremoved]
      rfl
    · rw [List.map_append, List.map_append, List.filterMap_append, List.flatMap_append, hcredits]
      rfl

end Deliver

section Parts

variable {onCommit : List (Nat × Modify) → Database → Database → Prop}
  {post : Bool → Progress × Database → Prop} {t : Progress} {db : Database} {w : Nat}

/-- What was read of an order, as the delivery that is to come. -/
def TOrderData.delivered (data : TOrderData) (w d carrier now : Nat) : Delivered :=
  ⟨w, d, data.orderID, data.customerId, data.totalAmount, carrier, now⟩

/-- What the plain reads of the order saw, in whatever committed states, is what the tables hold. -/
theorem ready_of_reads {db₁ db₂ db₃ old old' : Database} {n : NewOrder} {order : Oorder}
    {d : Nat} (carrier now : Nat) (hsound : Sound db₁) (hn : n ∈ db₁.newOrder)
    (hkey : n.key = (w, d, n.noOId))
    (holdest : ∃ rest, newOrderIds db₁.newOrder (w, d) = n.noOId :: rest)
    (hrely₂ : Rely (t.lock [Row.newOrder n.key]).locks db₁ db₂) (hlater : Later old db₂)
    (horder : Query.eval old (.deliverySelectOrderCustomer w d n.noOId) = some order)
    (hrely₃ : Rely (t.lock [Row.newOrder n.key]).locks db₂ db₃) (hsound' : Sound old')
    (hlater' : Later old' db₃)
    (hlines : ¬(linesOf old'.orderLine (w, d, n.noOId)).isEmpty = true) :
    Ready (t.lock [Row.newOrder n.key]).locks db₁
      (TOrderData.delivered ⟨n.noOId, order.oCId,
        ((linesOf old'.orderLine (w, d, n.noOId)).map OrderLine.olAmount).sum⟩ w d carrier now) := by
  obtain ⟨first, next, hfirst, hle, hlt, hids, -⟩ :=
    ids_of_newOrder hsound (List.mem_map.2 ⟨n, hn, hkey⟩)
  have hid : n.noOId ∈ orderIds db₁.oorder (w, d) := by
    rw [hids, List.mem_range'_1]
    omega
  obtain ⟨o, ho, hokey⟩ := List.mem_map.1 (mem_orderIds.1 hid)
  refine ⟨List.mem_append_right _ ?_, holdest, ⟨o, ho, hokey, ?_⟩, ?_⟩
  · rw [hkey]
    exact List.mem_cons_self
  · obtain ⟨o₂, ho₂, hokey₂, hcustomer₂⟩ := hrely₂.later.orders o ho
    obtain ⟨hold, hkey'⟩ := Table.lookup_eq_some horder
    obtain ⟨o₃, ho₃, hokey₃, hcustomer₃⟩ := hlater.orders order hold
    have hsame : o₂ = o₃ := Table.eq_of_key hrely₂.sound.keyed.oorder ho₂ ho₃ (by
      rw [hokey₂, hokey, hokey₃, hkey'])
    exact hcustomer₂.symm.trans (hsame ▸ hcustomer₃)
  · obtain ⟨l, hl⟩ := List.exists_mem_of_ne_nil _ (by simpa using hlines)
    obtain ⟨hl, hlorder⟩ := order_of_mem_linesOf hl
    obtain ⟨o', ho', hokey'⟩ := hsound'.orders.lineOrder l hl
    have hlines₁ := (hrely₂.trans hrely₃).later.lines o ho
    have hlines' := hlater'.lines o' ho'
    rw [hokey', hlorder] at hlines'
    rw [hokey] at hlines₁
    have hsum := congrArg (List.map Prod.snd) (hlines'.symm.trans hlines₁)
    rw [List.map_map, List.map_map] at hsum
    exact congrArg List.sum hsum

theorem Safe.selectOrder {d : Nat} {f : Option (Option TOrderData) → Transaction.Task Bool}
    (hstart : t.statements = [])
    (h : ∀ result t' db', t'.statements = [] → t.locks ⊆ t'.locks → Rely t.locks db db' →
      (∀ data, result = some (some data) →
        ∀ carrier now, Ready t'.locks db' (TOrderData.delivered data w d carrier now)) →
      Safe onCommit post (f result) t' db') :
    Safe onCommit post (selectOrder w d >>= f) t db := by
  unfold Transaction.selectOrder
  rw [Program.bind_assoc]
  refine .select_forUpdate rfl fun db₁ view hrely₁ hview => ?_
  rw [hstart] at hview
  obtain rfl := Option.some.inj hview
  generalize hresult : Query.eval db₁ (.deliverySelectNewOrderForUpdate _ _) = noResult
  cases noResult with
  | none => exact h _ _ db₁ hstart (List.subset_append_left _ _) hrely₁ nofun
  | some n =>
    obtain ⟨hn, hkey, holdest⟩ := first_eq hrely₁.sound hresult
    have hsub : t.locks ⊆ (t.lock [Row.newOrder n.key]).locks := List.subset_append_left _ _
    have hmono : ∀ {db₂}, Rely (t.lock [Row.newOrder n.key]).locks db₁ db₂ → Rely t.locks db db₂ :=
      fun hrely => hrely₁.trans (hrely.mono hsub)
    refine .select_plain rfl fun db₂ cidResult hrely₂ hcid => ?_
    obtain ⟨old, -, hlater, rfl⟩ := hcid hstart
    generalize hresult₂ : Query.eval old (.deliverySelectOrderCustomer _ _ _) = cidResult
    cases cidResult with
    | none => exact .stop fun db' hrely => h _ _ db' hstart hsub (hmono (hrely₂.trans hrely)) nofun
    | some order =>
      refine .select_plain rfl fun db₃ olResult hrely₃ hol => ?_
      obtain ⟨old', hsound', hlater', rfl⟩ := hol hstart
      change Safe onCommit post ((if (linesOf old'.orderLine (w, d, n.noOId)).isEmpty then _
        else _) >>= f) _ _
      split
      · exact .stop fun db' hrely =>
          h _ _ db' hstart hsub (hmono (hrely₂.trans (hrely₃.trans hrely))) nofun
      · next hlines =>
        refine h _ _ db₃ hstart hsub (hmono (hrely₂.trans hrely₃)) ?_
        rintro data ⟨⟩ carrier now
        have hready := ready_of_reads carrier now hrely₁.sound hn hkey holdest hrely₂ hlater
          hresult₂ hrely₃ hsound' hlater' hlines
        exact hready.stable hrely₁.sound (hrely₂.trans hrely₃)

theorem Safe.selectOrders {ds : List Nat}
    {f : Option (List (Nat × Option TOrderData)) → Transaction.Task Bool}
    (hsound : Sound db) (hstart : t.statements = [])
    (h : ∀ result t' db', t'.statements = [] → t.locks ⊆ t'.locks → Rely t.locks db db' →
      (∀ orders, result = some orders → orders.map Prod.fst = ds ∧
        ∀ d data, (d, some data) ∈ orders →
          ∀ carrier now, Ready t'.locks db' (TOrderData.delivered data w d carrier now)) →
      Safe onCommit post (f result) t' db') :
    Safe onCommit post (selectOrders w ds >>= f) t db := by
  induction ds generalizing f t db with
  | nil =>
    refine h _ t db hstart (List.Subset.refl _) (.refl _ hsound) ?_
    rintro orders ⟨⟩
    exact ⟨rfl, nofun⟩
  | cons d ds ih =>
    unfold Transaction.selectOrders
    rw [Program.bind_assoc]
    refine .selectOrder hstart fun result t₁ db₁ hstart₁ hsub₁ hrely₁ hready₁ => ?_
    cases result with
    | none => exact h _ t₁ db₁ hstart₁ hsub₁ hrely₁ nofun
    | some order =>
      dsimp only
      rw [Program.bind_assoc]
      refine ih hrely₁.sound hstart₁ fun result t₂ db₂ hstart₂ hsub₂ hrely₂ hready₂ => ?_
      refine h _ t₂ db₂ hstart₂ (List.Subset.trans hsub₁ hsub₂)
        (hrely₁.trans (hrely₂.mono hsub₁)) ?_
      intro orders horders
      cases result with
      | none => cases horders
      | some rest =>
        obtain rfl := Option.some.inj horders
        obtain ⟨hds, hrest⟩ := hready₂ rest rfl
        refine ⟨by rw [List.map_cons, hds], fun d' data hmem carrier now => ?_⟩
        rcases List.mem_cons.1 hmem with heq | hmem
        · obtain ⟨rfl, rfl⟩ := Prod.mk.inj heq
          have hready := (hready₁ data rfl carrier now).stable hrely₁.sound hrely₂
          exact ⟨hsub₂ hready.locked, hready.deliverable⟩
        · exact hrest d' data hmem carrier now

theorem Safe.deliverOrders {carrierID : Nat} {orders : List (Nat × Option TOrderData)}
    {xs : List Delivered} {f : Unit → Transaction.Task Bool} (hsound : Sound db)
    (hdone : Delivers t.statements xs) (hxs : ∀ x ∈ xs, Ready t.locks db x)
    (horders : ∀ d data, (d, some data) ∈ orders →
      ∀ carrier now, Ready t.locks db (TOrderData.delivered data w d carrier now))
    (hnodup : (xs.map (fun x => (x.w, x.d)) ++ orders.map fun p => (w, p.1)).Nodup)
    (h : ∀ t' db' xs', Delivers t'.statements xs' → Rely t.locks db db' → t'.locks = t.locks →
      (∀ x ∈ xs', Ready t'.locks db' x) → (xs'.map fun x => (x.w, x.d)).Nodup →
      Safe onCommit post (f ()) t' db') :
    Safe onCommit post (deliverOrders w carrierID orders >>= f) t db := by
  induction orders generalizing t db xs with
  | nil =>
    rw [List.map_nil, List.append_nil] at hnodup
    exact h t db xs hdone (.refl _ hsound) rfl hxs hnodup
  | cons entry rest ih =>
    obtain ⟨d, order⟩ := entry
    cases order with
    | none =>
      refine ih hsound hdone hxs (fun d' data hmem => horders d' data (List.mem_cons_of_mem _ hmem))
        ?_ h
      exact hnodup.sublist (List.Sublist.append_left (List.sublist_cons_self _ _) _)
    | some data =>
      have hne : ∀ x ∈ xs, (x.w, x.d) ≠ (w, d) := by
        intro x hx heq
        refine List.disjoint_of_nodup_append hnodup (List.mem_map_of_mem hx) ?_
        rw [heq]
        exact List.mem_cons_self
      have hready : ∀ {db'}, Rely t.locks db db' → ∀ now,
          Ready t.locks db' (TOrderData.delivered data w d carrierID now) := fun hrely now =>
        (horders d data List.mem_cons_self carrierID now).stable hsound hrely
      have hview : ∀ {db'}, Rely t.locks db db' →
          Deliverable (deliverAll db' xs) (TOrderData.delivered data w d carrierID 0) :=
        fun hrely => Deliverable.all (hready hrely 0).deliverable hne
      unfold Transaction.deliverOrders Transaction.deliverOrder
      simp only [Program.bind_assoc]
      refine .modify fun db₁ view₁ _ n₁ hrely₁ hview₁ _ => ⟨?_, ?_⟩
      · rw [hdone.applyStatements_eq, Option.some_inj] at hview₁
        obtain ⟨n, hn, hkey⟩ := (hview hrely₁).pending
        rw [← hview₁]
        exact List.mem_map.2 ⟨n, hn, hkey⟩
      refine .modify fun db₂ view₂ _ n₂ hrely₂ hview₂ _ => ⟨?_, ?_⟩
      · rw [Progress.execute, applyStatements_append, hdone.applyStatements_eq] at hview₂
        obtain rfl := Option.some.inj hview₂
        obtain ⟨o, ho, hkey, -⟩ := (hview (hrely₁.trans hrely₂)).order
        exact List.mem_map.2 ⟨o, ho, hkey⟩
      refine .modify fun db₃ view₃ _ n₃ hrely₃ _ _ => ⟨?_, ?_⟩
      · obtain ⟨o, ho, hkey, -⟩ :=
          (hready (hrely₁.trans (hrely₂.trans hrely₃)) 0).deliverable.order
        exact List.mem_map.2 ⟨o, ho, hkey⟩
      refine .modify fun db₄ view₄ _ n₄ hrely₄ _ _ => ⟨trivial, ?_⟩
      have hrely : Rely t.locks db db₄ := hrely₁.trans (hrely₂.trans (hrely₃.trans hrely₄))
      refine @ih _ db₄ (xs ++ [TOrderData.delivered data w d carrierID n₃]) hrely.sound ?_ ?_ ?_ ?_
        fun t' db' xs' hdone' hrely' ht' hxs' hnodup' =>
          h t' db' xs' hdone' (hrely.trans hrely') ht' hxs' hnodup'
      · have hsnoc := @Delivers.snoc _ _ (TOrderData.delivered data w d carrierID n₃) n₁ n₂ n₄ hdone
        simpa [Progress.execute, TOrderData.delivered] using hsnoc
      · intro x hx
        rcases List.mem_append.1 hx with hx | hx
        · exact (hxs x hx).stable hsound hrely
        · obtain rfl := List.mem_singleton.1 hx
          exact hready hrely n₃
      · exact fun d' data' hmem carrier now =>
          (horders d' data' (List.mem_cons_of_mem _ hmem) carrier now).stable hsound hrely
      · simpa [TOrderData.delivered] using hnodup

end Parts

theorem getDeliveryTask_safe {context : TTransactionContext} (draws : DeliveryDraws)
    {db : Database} (hsound : Sound db) :
    Safe (fun statements db view => ∃ ops, Commits statements db view ops) (fun _ _ => True)
      (getDeliveryTask context draws) .start db := by
  refine .selectOrders hsound rfl fun orders t db₁ hstart _ hrely hready => ?_
  cases orders with
  | none => trivial
  | some orders =>
    obtain ⟨hds, hready⟩ := hready orders rfl
    refine @Safe.deliverOrders _ _ t db₁ context.warehouseID _ orders [] _ hrely.sound ?_ nofun
      hready ?_ fun t₂ db₂ xs hdone hrely₂ ht₂ hxs hnodup => ?_
    · rw [hstart]
      exact .nil
    · have hmap : orders.map (fun p => (context.warehouseID, p.1)) =
          (orders.map Prod.fst).map fun d => (context.warehouseID, d) := by
        rw [List.map_map]
        rfl
      rw [List.map_nil, List.nil_append, hmap, hds]
      exact List.Nodup.map (fun _ _ heq => (Prod.mk.inj heq).2) List.nodup_range'
    · refine .commit fun db₃ view hrely₃ hview => ?_
      rw [hdone.applyStatements_eq, Option.some_inj] at hview
      refine ⟨xs.map Operation.deliver, ?_, hview.symm, hdone.records⟩
      refine enabledAll_deliver (fun x hx => ?_) hnodup
      exact ((hxs x hx).stable hrely₂.sound hrely₃).deliverable

end Tpcc.Isolation
