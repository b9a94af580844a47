import Tpcc.Isolation.Concurrent
import Tpcc.Serial.Stock

/-! What concurrent transactions leave behind: order ids without gaps, orders that are delivered once
and credited, and a stock that has lost no order line. -/

namespace Tpcc.Isolation

open Lib Store Transaction Import Serial

section Operations

variable {db : Database} {ops : List Operation}

/-- The orders are those before, and the new ones. -/
theorem map_key_oorder_applyAll :
    (ops.foldl Operation.apply db).oorder.map Oorder.key =
      db.oorder.map Oorder.key ++ ops.flatMap Operation.orders := by
  induction ops generalizing db with
  | nil => simp
  | cons op ops ih =>
    have hop : (op.apply db).oorder.map Oorder.key = db.oorder.map Oorder.key ++ op.orders := by
      cases op with
      | newOrder order lines => exact List.map_append
      | payment row cData => exact (List.append_nil _).symm
      | deliver x =>
        have hkeys : ((Operation.deliver x).apply db).oorder.map Oorder.key =
            db.oorder.map Oorder.key := Table.map_update fun _ => rfl
        exact hkeys.trans (List.append_nil _).symm
    rw [List.foldl_cons, ih, hop, List.flatMap_cons, List.append_assoc]

/-- No order is delivered twice, or again when it was delivered before. -/
theorem removed_nodup (h : Sound db) (he : EnabledAll db ops) :
    (ops.flatMap Operation.removed).Nodup ∧
      ∀ k ∈ ops.flatMap Operation.removed, k ∈ db.oorder.map Oorder.key →
        k ∈ db.newOrder.map NewOrder.key := by
  induction ops generalizing db with
  | nil => exact ⟨List.nodup_nil, nofun⟩
  | cons op ops ih =>
    obtain ⟨hnodup, hpending⟩ := ih (Sound.apply h he.1) he.2
    have hlater := Later.apply h he.1
    have hrest : ∀ k ∈ ops.flatMap Operation.removed, k ∈ db.oorder.map Oorder.key →
        k ∈ db.newOrder.map NewOrder.key := by
      intro k hk hkey
      obtain ⟨o, ho, rfl⟩ := List.mem_map.1 hkey
      obtain ⟨o', ho', hkey', -⟩ := hlater.orders o ho
      obtain ⟨n, hn, hnkey⟩ := List.mem_map.1 (hpending o.key hk (List.mem_map.2 ⟨o', ho', hkey'⟩))
      rw [← hnkey] at hkey ⊢
      exact hlater.newOrders n hn hkey
    rw [List.flatMap_cons]
    cases op with
    | newOrder order lines => exact ⟨hnodup, hrest⟩
    | payment row cData => exact ⟨hnodup, hrest⟩
    | deliver x =>
      have hx : Deliverable db x := he.1
      obtain ⟨n, hn, hnkey⟩ := hx.pending
      obtain ⟨o, ho, hokey, -⟩ := hx.order
      obtain ⟨o', ho', hokey', -⟩ := hlater.orders o ho
      refine ⟨List.nodup_cons.2 ⟨fun hmem => ?_, hnodup⟩, List.forall_mem_cons.2 ⟨fun _ => ?_, hrest⟩⟩
      · have hagain := hpending x.order hmem (List.mem_map.2 ⟨o', ho', hokey'.trans hokey⟩)
        obtain ⟨n', hn', hkey⟩ := List.mem_map.1 hagain
        have hne := (List.mem_filter.1 hn').2
        simp [hkey] at hne
      · exact List.mem_map.2 ⟨n, hn, hnkey⟩

/-- The deliveries among the operations. -/
def deliveries (ops : List Operation) : List Delivered :=
  ops.filterMap fun
    | .deliver x => some x
    | _ => none

theorem removed_eq : ops.flatMap Operation.removed = (deliveries ops).map Delivered.order := by
  induction ops with
  | nil => rfl
  | cons op ops ih =>
    rw [List.flatMap_cons, ih]
    cases op <;> rfl

theorem credits_eq :
    ops.flatMap Operation.credits = (deliveries ops).map fun x => (x.customer, x.amount) := by
  induction ops with
  | nil => rfl
  | cons op ops ih =>
    rw [List.flatMap_cons, ih]
    cases op <;> rfl

/-- The amounts of an order's lines. -/
def orderTotal (db : Database) (k : Nat × Nat × Nat) : Money :=
  ((linesOf db.orderLine k).map OrderLine.olAmount).sum

/-- What was credited for a delivery is what the order's lines amount to in the end. -/
theorem deliveries_total (h : Sound db) (he : EnabledAll db ops) :
    ∀ x ∈ deliveries ops, ∃ o ∈ (ops.foldl Operation.apply db).oorder,
      o.key = x.order ∧ o.customer = x.customer ∧
        orderTotal (ops.foldl Operation.apply db) x.order = x.amount := by
  induction ops generalizing db with
  | nil => nofun
  | cons op ops ih =>
    intro x hx
    have hrest := ih (Sound.apply h he.1) he.2
    cases op with
    | newOrder order lines => exact hrest x hx
    | payment row cData => exact hrest x hx
    | deliver y =>
      rcases List.mem_cons.1 hx with rfl | hx
      · have hdeliver : Deliverable db x := he.1
        obtain ⟨o, ho, hkey, hcustomer⟩ := hdeliver.order
        have hlater := Later.applyAll h he
        obtain ⟨o', ho', hkey', hcustomer'⟩ := hlater.orders o ho
        refine ⟨o', ho', hkey'.trans hkey, ?_, ?_⟩
        · have hkeys := hkey'.trans hkey
          simp only [Oorder.key, Delivered.order, Prod.mk.injEq] at hkeys
          simp only [Oorder.customer, Delivered.customer, hkeys.1, hkeys.2.1, hcustomer', hcustomer]
        · have hlines := congrArg (List.map Prod.snd) (hlater.lines o ho)
          rw [List.map_map, List.map_map, hkey] at hlines
          rw [hdeliver.total, orderTotal]
          exact congrArg List.sum hlines
      · exact hrest x hx

/-- The amounts of deliveries to a customer are those of the customer's orders among them. -/
theorem sum_deliveries {db : Database} {xs : List Delivered} (k : Nat × Nat × Nat)
    (hkeys : (db.oorder.map Oorder.key).Nodup) (hnodup : (xs.map Delivered.order).Nodup)
    (h : ∀ x ∈ xs, ∃ o ∈ db.oorder, o.key = x.order ∧ o.customer = x.customer ∧
      orderTotal db x.order = x.amount) :
    ((xs.filter fun x => x.customer = k).map Delivered.amount).sum =
      Table.total (fun o => decide (o.customer = k))
        (fun o => if o.key ∈ xs.map Delivered.order then orderTotal db o.key else 0) db.oorder := by
  induction xs with
  | nil => exact (Table.total_eq_zero fun _ _ _ => rfl).symm
  | cons x xs ih =>
    rw [List.map_cons, List.nodup_cons] at hnodup
    obtain ⟨o, ho, hkey, hcustomer, htotal⟩ := h x List.mem_cons_self
    have hadd := @Table.total_add_at _ _ _ Oorder.key x.order db.oorder
      (fun o => decide (o.customer = k))
      (fun o => if o.key ∈ xs.map Delivered.order then orderTotal db o.key else 0)
      (fun o => if o.key ∈ (x :: xs).map Delivered.order then orderTotal db o.key else 0)
      x.amount hkeys o ho hkey fun r => by
        by_cases hr : r.key = x.order
        · have hx : r.key ∈ (x :: xs).map Delivered.order := hr ▸ List.mem_cons_self
          rw [if_pos hr, if_pos hx, hr, if_neg hnodup.1, htotal, Int.zero_add]
        · rw [if_neg hr, Int.add_zero]
          simp [hr]
    rw [hadd, ← ih hnodup.2 fun y hy => h y (List.mem_cons_of_mem x hy), hcustomer]
    by_cases hk : x.customer = k
    · simp [hk, Int.add_comm]
    · simp [hk]

/-- What is delivered to a customer, and so the balance, grows by the credits. -/
theorem customerDelivered_applyAll {db : Database} {ops : List Operation} (h : Sound db)
    (he : EnabledAll db ops) (k : Nat × Nat × Nat) :
    customerDelivered (ops.foldl Operation.apply db) k = customerDelivered db k +
      (((ops.flatMap Operation.credits).filter fun p => p.1 = k).map Prod.snd).sum := by
  induction ops generalizing db with
  | nil => simp
  | cons op ops ih =>
    rw [List.foldl_cons, ih (Sound.apply h he.1) he.2, List.flatMap_cons]
    cases op with
    | newOrder order lines =>
      rw [customerDelivered_newOrder he.1 h]
      rfl
    | payment row cData => rfl
    | deliver x =>
      rw [customerDelivered_deliver he.1 h]
      by_cases hk : x.customer = k
      · simp [Operation.credits, hk, Int.add_assoc]
      · simp [Operation.credits, hk]

/-- The lines that were inserted are those of the new orders. -/
theorem StockRun.applyAll {before db : Database} {ops : List Operation} (h : Sound db)
    (hrun : StockRun before db) (he : EnabledAll db ops) :
    StockRun before (ops.foldl Operation.apply db) ∧
    (insertedLines before (ops.foldl Operation.apply db)).map OrderLine.demand =
      (insertedLines before db).map OrderLine.demand ++ ops.flatMap Operation.supplied := by
  induction ops generalizing db with
  | nil => exact ⟨hrun, by simp⟩
  | cons op ops ih =>
    obtain ⟨hlast, hlines⟩ := ih (Sound.apply h he.1) (hrun.apply he.1) he.2
    refine ⟨hlast, ?_⟩
    have hop : (insertedLines before (op.apply db)).map OrderLine.demand =
        (insertedLines before db).map OrderLine.demand ++ op.supplied := by
      cases op with
      | newOrder order lines =>
        have happend : insertedLines before ((Operation.newOrder order lines).apply db) =
            insertedLines before db ++ lines := List.drop_append_of_le_length hrun.longer
        rw [happend, List.map_append]
        rfl
      | payment row cData => exact (List.append_nil _).symm
      | deliver x =>
        have hupdate : insertedLines before ((Operation.deliver x).apply db) =
            Table.update OrderLine.order x.order (fun r => { r with olDeliveryD := some x.now })
              (insertedLines before db) := List.map_drop.symm
        have hsame : (Table.update OrderLine.order x.order
            (fun r => { r with olDeliveryD := some x.now }) (insertedLines before db)).map
              OrderLine.demand = (insertedLines before db).map OrderLine.demand :=
          Table.map_update fun _ => rfl
        rw [hupdate, hsame]
        exact (List.append_nil _).symm
    rw [List.foldl_cons, hlines, hop, List.flatMap_cons, List.append_assoc]

end Operations

namespace State

variable (s : State)

/-- The statements of the committed transactions, in the order of the commits. -/
def executed : List Modify := s.log.flatten.map Prod.snd

/-- The ids of the orders that were committed in a district. -/
def committedIds (district : Nat × Nat) : List Nat :=
  ((s.executed.filterMap Modify.order?).filter fun k => (k.1, k.2.1) = district).map fun k => k.2.2

/-- The new orders that committed transactions deleted. -/
def removed : List (Nat × Nat × Nat) := s.executed.filterMap Modify.removed?

/-- What committed deliveries credited a customer. -/
def credited (customer : Nat × Nat × Nat) : Money :=
  (((s.executed.filterMap Modify.credit?).filter fun p => p.1 = customer).map Prod.snd).sum

/-- The quantities of the committed order lines that a row of the stock supplies. -/
def demanded (key : Nat × Int) : List Int :=
  ((s.executed.filterMap Modify.supplied?).filter fun p => p.1 = key).map Prod.snd

end State

/-- The committed transactions have not disturbed each other. -/
structure Isolated (init : Database) (s : State) : Prop where
  /-- The ids of the orders committed in a district are those from its first `D_NEXT_O_ID` on. -/
  orders : ∀ d₀ ∈ init.district, ∃ d ∈ s.committed.district, d.key = d₀.key ∧
    d₀.dNextOId ≤ d.dNextOId ∧
    s.committedIds d₀.key = List.range' d₀.dNextOId (d.dNextOId - d₀.dNextOId) ∧
    orderIds s.committed.oorder d₀.key = orderIds init.oorder d₀.key ++ s.committedIds d₀.key
  /-- A new order is deleted once. -/
  removed : s.removed.Nodup
  /-- A customer is credited the lines of the orders that were delivered, each order once. -/
  credited : ∀ k, s.credited k =
    ((s.committed.oorder.filter fun o => o.customer = k ∧ o.key ∈ s.removed).map fun o =>
      ((linesOf s.committed.orderLine o.key).map OrderLine.olAmount).sum).sum
  /-- The credits are in the balances, and nothing else is but the payments. -/
  balance : ∀ c ∈ s.committed.customer, ∃ c₀ ∈ init.customer, c₀.key = c.key ∧
    c.cBalance = c₀.cBalance + s.credited c.key -
      (customerPaid s.committed c.key - customerPaid init c.key)
  /-- A stock row has the quantity that the committed order lines leave, one after the other. -/
  stock : s.committed.stock.map Stock.key = init.stock.map Stock.key ∧
    ∀ r ∈ s.committed.stock, ∃ r₀ ∈ init.stock, r₀.key = r.key ∧
      r.sQuantity = (s.demanded r.key).foldl nextQuantity r₀.sQuantity
  /-- The order lines of the table since the start are the committed ones, in this order. -/
  lines : (insertedLines init s.committed).map OrderLine.demand =
    s.executed.filterMap Modify.supplied?

section Isolated

variable {init : Database} {s : State}

/-- The order ids of a district from the keys of the orders. -/
theorem orderIds_eq_keys (oorder : List Oorder) (district : Nat × Nat) :
    orderIds oorder district =
      ((oorder.map Oorder.key).filter fun k => (k.1, k.2.1) = district).map fun k => k.2.2 := by
  rw [List.filter_map, List.map_map]
  rfl

theorem Inv.orders (h : Inv init s) (hinit : Sound init) : ∀ d₀ ∈ init.district,
    ∃ d ∈ s.committed.district, d.key = d₀.key ∧ d₀.dNextOId ≤ d.dNextOId ∧
      s.committedIds d₀.key = List.range' d₀.dNextOId (d.dNextOId - d₀.dNextOId) ∧
      orderIds s.committed.oorder d₀.key =
        orderIds init.oorder d₀.key ++ s.committedIds d₀.key := by
  intro d₀ hd₀
  obtain ⟨ops, hcommits⟩ := h.log
  have hlater : Later init s.committed := by
    rw [hcommits.result]
    exact Later.applyAll hinit hcommits.enabled
  obtain ⟨d, hd, hkey⟩ : ∃ d ∈ s.committed.district, d.key = d₀.key := by
    have hmem : d₀.key ∈ s.committed.district.map District.key := by
      rw [hlater.district]
      exact List.mem_map_of_mem hd₀
    exact List.mem_map.1 hmem
  have hids : orderIds s.committed.oorder d₀.key =
      orderIds init.oorder d₀.key ++ s.committedIds d₀.key := by
    rw [orderIds_eq_keys, hcommits.result, map_key_oorder_applyAll, ← hcommits.records.orders,
      List.filter_append, List.map_append, ← orderIds_eq_keys]
    rfl
  obtain ⟨hpos₀, hids₀⟩ := hinit.orders.orders _ (List.mem_map_of_mem hd₀)
  obtain ⟨hpos, hids'⟩ := h.sound.orders.orders _ (List.mem_map_of_mem hd)
  have hfirst : orderIds init.oorder d₀.key = List.range' 1 (d₀.dNextOId - 1) := hids₀
  have hlast : orderIds s.committed.oorder d₀.key = List.range' 1 (d.dNextOId - 1) := by
    rw [← hkey]
    exact hids'
  have hpos₀ : 2 ≤ d₀.dNextOId := hpos₀
  have hpos : 2 ≤ d.dNextOId := hpos
  have hsum : List.range' 1 (d.dNextOId - 1) =
      List.range' 1 (d₀.dNextOId - 1) ++ s.committedIds d₀.key := by
    rw [← hlast, ← hfirst, hids]
  have hlength := congrArg List.length hsum
  rw [List.length_append, List.length_range', List.length_range'] at hlength
  refine ⟨d, hd, hkey, by omega, ?_, hids⟩
  have hsplit := @List.range'_append_1 1 (d₀.dNextOId - 1) (d.dNextOId - d₀.dNextOId)
  have hstart : 1 + (d₀.dNextOId - 1) = d₀.dNextOId := by omega
  have hcount : d₀.dNextOId - 1 + (d.dNextOId - d₀.dNextOId) = d.dNextOId - 1 := by omega
  rw [hstart, hcount, hsum] at hsplit
  exact (List.append_cancel_left hsplit).symm

theorem Inv.credited (h : Inv init s) (hinit : Sound init) (k : Nat × Nat × Nat) :
    s.removed.Nodup ∧ s.credited k =
      ((s.committed.oorder.filter fun o => o.customer = k ∧ o.key ∈ s.removed).map fun o =>
        ((linesOf s.committed.orderLine o.key).map OrderLine.olAmount).sum).sum := by
  obtain ⟨ops, hcommits⟩ := h.log
  have hremoved : s.removed = (deliveries ops).map Delivered.order :=
    hcommits.records.removed.trans removed_eq
  have hnodup : ((deliveries ops).map Delivered.order).Nodup := by
    rw [← removed_eq]
    exact (removed_nodup hinit hcommits.enabled).1
  have htotals := deliveries_total hinit hcommits.enabled
  rw [← hcommits.result] at htotals
  have hcredits : s.executed.filterMap Modify.credit? =
      (deliveries ops).map fun x => (x.customer, x.amount) :=
    hcommits.records.credits.trans credits_eq
  refine ⟨hremoved ▸ hnodup, ?_⟩
  have hsum : s.credited k =
      (((deliveries ops).filter fun x => x.customer = k).map Delivered.amount).sum := by
    rw [State.credited, hcredits, List.filter_map, List.map_map]
    rfl
  rw [hsum, sum_deliveries k h.sound.keyed.oorder hnodup htotals, hremoved]
  refine Table.total_congr (List.map_congr_left fun o _ => ?_)
  by_cases hk : o.customer = k
  · by_cases ho : o.key ∈ (deliveries ops).map Delivered.order
    · simp only [hk, ho, decide_true, and_self, if_true]
      rfl
    · simp [hk, ho]
  · simp [hk]

theorem Inv.balance (h : Inv init s) (hinit : Sound init) : ∀ c ∈ s.committed.customer,
    ∃ c₀ ∈ init.customer, c₀.key = c.key ∧
      c.cBalance = c₀.cBalance + s.credited c.key -
        (customerPaid s.committed c.key - customerPaid init c.key) := by
  intro c hc
  obtain ⟨ops, hcommits⟩ := h.log
  have hlater : Later init s.committed := by
    rw [hcommits.result]
    exact Later.applyAll hinit hcommits.enabled
  obtain ⟨c₀, hc₀, hkey⟩ : ∃ c₀ ∈ init.customer, c₀.key = c.key := by
    have hmem : c.key ∈ init.customer.map Customer.key := by
      rw [← hlater.customer]
      exact List.mem_map_of_mem hc
    exact List.mem_map.1 hmem
  have hbalance := h.sound.consistent.balance c hc
  have hbalance₀ := hinit.consistent.balance c₀ hc₀
  have hdelivered := customerDelivered_applyAll hinit hcommits.enabled c.key
  rw [← hcommits.result, ← hcommits.records.credits] at hdelivered
  have hcredited : customerDelivered s.committed c.key =
      customerDelivered init c.key + s.credited c.key := hdelivered
  rw [hkey] at hbalance₀
  refine ⟨c₀, hc₀, hkey, ?_⟩
  have hsum : ∀ delivered credited paid paid₀ : Int,
      delivered + credited - paid = delivered - paid₀ + credited - (paid - paid₀) := by
    intro delivered credited paid paid₀
    omega
  rw [hbalance, hbalance₀, hcredited]
  exact hsum _ _ _ _

theorem Inv.stock (h : Inv init s) (hinit : Sound init) :
    (s.committed.stock.map Stock.key = init.stock.map Stock.key ∧
      ∀ r ∈ s.committed.stock, ∃ r₀ ∈ init.stock, r₀.key = r.key ∧
        r.sQuantity = (s.demanded r.key).foldl nextQuantity r₀.sQuantity) ∧
    (insertedLines init s.committed).map OrderLine.demand =
      s.executed.filterMap Modify.supplied? := by
  obtain ⟨ops, hcommits⟩ := h.log
  obtain ⟨hrun, hdemand⟩ := StockRun.applyAll hinit (.refl init) hcommits.enabled
  have hnone : insertedLines init init = [] := List.drop_length
  rw [← hcommits.result] at hrun hdemand
  rw [hnone, List.map_nil, List.nil_append, ← hcommits.records.supplied] at hdemand
  refine ⟨⟨?_, fun r hr => ?_⟩, hdemand⟩
  · rw [hrun.stock]
    exact map_key_supply _ _
  · rw [hrun.stock, foldl_supply] at hr
    obtain ⟨r₀, hr₀, rfl⟩ := List.mem_map.1 hr
    obtain ⟨hkey, hquantity, -⟩ := foldl_supplyRow (insertedLines init s.committed) r₀
    refine ⟨r₀, hr₀, hkey.symm, ?_⟩
    rw [hquantity, hkey, State.demanded]
    have hlines : ((s.executed.filterMap Modify.supplied?).filter fun p => p.1 = r₀.key).map
        Prod.snd = (linesFor r₀.key (insertedLines init s.committed)).map OrderLine.olQuantity := by
      have hdemand' : s.executed.filterMap Modify.supplied? =
        (insertedLines init s.committed).map OrderLine.demand := hdemand.symm
      rw [hdemand', List.filter_map, List.map_map]
      rfl
    rw [hlines]

end Isolated

/-- Whatever transactions run, in whatever order their statements come, and wherever they are rolled
back, those that commit do not disturb each other. -/
theorem run_isolated (draws : ImportDraws) (warehouseCount : Nat) (actions : List Action) :
    Isolated (importTables draws warehouseCount)
      ((State.start (importTables draws warehouseCount)).run actions) := by
  have hinit := importTables_sound draws warehouseCount
  have hinv := (Inv.start hinit).run actions
  exact {
    orders := hinv.orders hinit
    removed := (hinv.credited hinit (0, 0, 0)).1
    credited := fun k => (hinv.credited hinit k).2
    balance := hinv.balance hinit
    stock := (hinv.stock hinit).1
    lines := (hinv.stock hinit).2 }

end Tpcc.Isolation
